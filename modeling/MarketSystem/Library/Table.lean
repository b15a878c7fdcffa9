import Mathlib.Data.List.Nodup
import Mathlib.Data.List.Perm.Basic
import Mathlib.Algebra.BigOperators.Group.List.Basic
import Mathlib.Algebra.Order.BigOperators.Group.List

/-!
# Tables with a primary key

A table is a list of rows in which no two rows share a key. The invariant is a
field, so every operation below is obliged to keep it and no later proof has to
state it again. The same structure serves a relational table with a primary key
and a dictionary of records that is indexed by one of their own fields.

Rows keep their order of insertion. Proofs do not look at that order: each
operation has one membership lemma, and membership determines every lookup.
-/
namespace Library

/-- Rows of type `ρ`, at most one for each value of `key`. -/
structure Table {κ ρ : Type} (key : ρ → κ) where
  rows : List ρ
  nodup : (rows.map key).Nodup

namespace Table

variable {κ ρ : Type} {key : ρ → κ}

instance [DecidableEq ρ] : DecidableEq (Table key) := fun s t =>
  decidable_of_iff (s.rows = t.rows) (by cases s; cases t; simp)

instance : Membership ρ (Table key) := ⟨fun t r => r ∈ t.rows⟩

theorem mem_def {t : Table key} {r : ρ} : r ∈ t ↔ r ∈ t.rows := Iff.rfl

instance [DecidableEq ρ] (t : Table key) (r : ρ) : Decidable (r ∈ t) :=
  inferInstanceAs (Decidable (r ∈ t.rows))

/-- Two rows of one table with the same key are the same row. -/
theorem eq_of_key {t : Table key} {r s : ρ} (hr : r ∈ t) (hs : s ∈ t)
    (h : key r = key s) : r = s :=
  List.inj_on_of_nodup_map t.nodup hr hs h

def empty : Table key := ⟨[], by simp⟩

@[simp] theorem rows_empty : (empty : Table key).rows = [] := rfl

@[simp] theorem not_mem_empty {r : ρ} : r ∉ (empty : Table key) := by
  simp [mem_def]

/-- A list of rows as a table, when no key repeats. -/
def ofList? [DecidableEq κ] (rows : List ρ) : Option (Table key) :=
  if h : (rows.map key).Nodup then some ⟨rows, h⟩ else none

theorem rows_of_ofList? [DecidableEq κ] {rows : List ρ} {t : Table key}
    (h : ofList? rows = some t) : t.rows = rows := by
  unfold ofList? at h
  split_ifs at h
  cases h
  rfl

/-! ## Selection by a predicate -/

/-- Keep the rows that satisfy `p`; deletion keeps the rows that do not. -/
def filter (t : Table key) (p : ρ → Bool) : Table key :=
  ⟨t.rows.filter p, t.nodup.sublist (t.rows.filter_sublist.map key)⟩

@[simp] theorem mem_filter {t : Table key} {p : ρ → Bool} {r : ρ} :
    r ∈ t.filter p ↔ r ∈ t ∧ p r = true := by
  simp [mem_def, filter]

/-! ## Updates that leave the key alone -/

/-- Apply `f` to every row. The caller shows that no key moves. -/
def modify (t : Table key) (f : ρ → ρ) (hf : ∀ r, key (f r) = key r) : Table key :=
  ⟨t.rows.map f, by
    have hk : key ∘ f = key := funext hf
    simpa [List.map_map, hk] using t.nodup⟩

@[simp] theorem mem_modify {t : Table key} {f : ρ → ρ} {hf : ∀ r, key (f r) = key r} {r : ρ} :
    r ∈ t.modify f hf ↔ ∃ s ∈ t, f s = r := by
  simp [mem_def, modify]

theorem mem_modify_of_mem {t : Table key} {f : ρ → ρ} (hf : ∀ r, key (f r) = key r) {r : ρ}
    (hr : r ∈ t) : f r ∈ t.modify f hf := by
  rw [mem_modify]
  exact ⟨r, hr, rfl⟩

theorem exists_of_mem_modify {t : Table key} {f : ρ → ρ} (hf : ∀ r, key (f r) = key r) {r : ρ}
    (hr : r ∈ t.modify f hf) : ∃ s ∈ t, f s = r := by
  rwa [mem_modify] at hr

section Keyed

/-- The rows written another way, with as many keys as before. -/
def map {κ' σ : Type} {key' : σ → κ'} (f : ρ → σ)
    (hf : ∀ r s, key' (f r) = key' (f s) ↔ key r = key s) (t : Table key) : Table key' :=
  ⟨t.rows.map f, by
    have hne := List.pairwise_map.mp t.nodup
    rw [List.map_map]
    exact List.pairwise_map.mpr (hne.imp fun {r s} hrs heq => hrs ((hf r s).mp heq))⟩

@[simp] theorem rows_map {κ' σ : Type} {key' : σ → κ'} {f : ρ → σ}
    {hf : ∀ r s, key' (f r) = key' (f s) ↔ key r = key s} {t : Table key} :
    (t.map f hf : Table key').rows = t.rows.map f := rfl

variable [DecidableEq κ]

/-! ## Lookup -/

def get? (t : Table key) (k : κ) : Option ρ :=
  t.rows.find? (fun r => decide (key r = k))

theorem get?_eq_some {t : Table key} {k : κ} {r : ρ} :
    t.get? k = some r ↔ r ∈ t ∧ key r = k := by
  constructor
  · intro h
    exact ⟨List.mem_of_find?_eq_some h, by simpa using List.find?_some h⟩
  · rintro ⟨hr, rfl⟩
    cases h : t.get? (key r) with
    | none => simpa using List.find?_eq_none.mp h r hr
    | some s =>
      have hs : s ∈ t := List.mem_of_find?_eq_some h
      have hk : key s = key r := by simpa using List.find?_some h
      rw [eq_of_key hs hr hk]

theorem get?_eq_none {t : Table key} {k : κ} :
    t.get? k = none ↔ ∀ r ∈ t, key r ≠ k := by
  simp [get?, mem_def]

theorem get?_of_mem {t : Table key} {r : ρ} (hr : r ∈ t) : t.get? (key r) = some r :=
  get?_eq_some.mpr ⟨hr, rfl⟩

theorem get?_eq_of_mem_iff {s t : Table key} (h : ∀ r, r ∈ s ↔ r ∈ t) (k : κ) :
    s.get? k = t.get? k := by
  ext r
  simp [get?_eq_some, h]

/-! ## Insertion -/

/-- Insertion under the primary-key constraint: `none` when the key is taken. -/
def insert? (t : Table key) (r : ρ) : Option (Table key) :=
  if h : key r ∈ t.rows.map key then none
  else some ⟨t.rows ++ [r], by
    have hd : ∀ s ∈ t.rows, key s ≠ key r := by
      intro s hs he
      exact h (List.mem_map.mpr ⟨s, hs, he⟩)
    simpa [List.nodup_append, t.nodup] using hd⟩

theorem insert?_eq_none {t : Table key} {r : ρ} :
    t.insert? r = none ↔ ∃ s ∈ t, key s = key r := by
  simp [insert?, mem_def]

theorem rows_of_insert? {t u : Table key} {r : ρ} (h : t.insert? r = some u) :
    u.rows = t.rows ++ [r] ∧ ∀ s ∈ t, key s ≠ key r := by
  unfold insert? at h
  split at h
  · cases h
  · rename_i hk
    cases h
    refine ⟨rfl, fun s hs he => hk ?_⟩
    exact List.mem_map.mpr ⟨s, hs, he⟩

theorem mem_of_insert? {t u : Table key} {r s : ρ} (h : t.insert? r = some u) :
    s ∈ u ↔ s ∈ t ∨ s = r := by
  simp [mem_def, (rows_of_insert? h).1]

/-- Insert or overwrite: the row with the same key is replaced where it stands. -/
def put (t : Table key) (r : ρ) : Table key :=
  match h : t.insert? r with
  | some u => u
  | none => ⟨t.rows.map (fun s => if key s = key r then r else s), by
      have hk : ∀ s, key (if key s = key r then r else s) = key s := by
        intro s
        split_ifs with he
        · exact he.symm
        · rfl
      have he : key ∘ (fun s => if key s = key r then r else s) = key := funext hk
      simpa [List.map_map, he] using t.nodup⟩

theorem mem_put {t : Table key} {r s : ρ} :
    s ∈ t.put r ↔ s = r ∨ (s ∈ t ∧ key s ≠ key r) := by
  unfold put
  split
  · rename_i u hu
    rw [mem_of_insert? hu]
    have hd := (rows_of_insert? hu).2
    constructor
    · rintro (hs | hs)
      · exact .inr ⟨hs, hd s hs⟩
      · exact .inl hs
    · rintro (hs | hs)
      · exact .inr hs
      · exact .inl hs.1
  · rename_i hn
    obtain ⟨w, hw, hwk⟩ := insert?_eq_none.mp hn
    simp only [mem_def, List.mem_map]
    constructor
    · rintro ⟨x, hx, rfl⟩
      by_cases he : key x = key r
      · exact .inl (by simp [he])
      · exact .inr (by simp [he, hx])
    · rintro (rfl | ⟨hs, hk⟩)
      · exact ⟨w, hw, by simp [hwk]⟩
      · exact ⟨s, hs, by simp [hk]⟩

/-- A row with a new key goes behind the others. -/
theorem rows_put_of_new {t : Table key} {r : ρ} (h : t.get? (key r) = none) :
    (t.put r).rows = t.rows ++ [r] := by
  unfold put
  split
  · rename_i u hu
    exact (rows_of_insert? hu).1
  · rename_i hn
    obtain ⟨s, hs, hk⟩ := insert?_eq_none.mp hn
    exact absurd hk (get?_eq_none.mp h s hs)

/-- A row under a key that is there takes its place. -/
theorem rows_put_of_mem {t : Table key} {r s : ρ} (hs : s ∈ t) (hk : key s = key r) :
    (t.put r).rows = t.rows.map (fun s => if key s = key r then r else s) := by
  unfold put
  split
  · rename_i u hu
    exact absurd hk ((rows_of_insert? hu).2 s hs)
  · rfl

theorem get?_put {t : Table key} {r : ρ} {k : κ} :
    (t.put r).get? k = if key r = k then some r else t.get? k := by
  split_ifs with h
  · exact get?_eq_some.mpr ⟨mem_put.mpr (.inl rfl), h⟩
  · ext s
    simp only [get?_eq_some, mem_put]
    constructor
    · rintro ⟨rfl | ⟨hs, -⟩, hk⟩
      · exact absurd hk h
      · exact ⟨hs, hk⟩
    · rintro ⟨hs, rfl⟩
      exact ⟨.inr ⟨hs, fun he => h he.symm⟩, rfl⟩

@[simp] theorem get?_put_self {t : Table key} {r : ρ} : (t.put r).get? (key r) = some r := by
  simp [get?_put]

theorem get?_put_of_ne {t : Table key} {r : ρ} {k : κ} (h : key r ≠ k) :
    (t.put r).get? k = t.get? k := by
  simp [get?_put, h]

/-- Insert or overwrite a list of rows, in order. -/
def putAll (t : Table key) (rs : List ρ) : Table key :=
  rs.foldl put t

@[simp] theorem putAll_nil {t : Table key} : t.putAll [] = t := rfl

@[simp] theorem putAll_cons {t : Table key} {r : ρ} {rs : List ρ} :
    t.putAll (r :: rs) = (t.put r).putAll rs := rfl

theorem mem_putAll {t : Table key} {rs : List ρ} (hn : (rs.map key).Nodup) {r : ρ} :
    r ∈ t.putAll rs ↔ r ∈ rs ∨ (r ∈ t ∧ ∀ s ∈ rs, key s ≠ key r) := by
  induction rs generalizing t with
  | nil => simp
  | cons s rs ih =>
    obtain ⟨hs, hn⟩ := List.nodup_cons.mp hn
    have hother : ∀ x ∈ rs, key x ≠ key s := fun x hx he =>
      hs (List.mem_map.mpr ⟨x, hx, he⟩)
    rw [putAll_cons, ih hn, mem_put]
    constructor
    · rintro (hr | ⟨rfl | ⟨hr, hk⟩, hall⟩)
      · exact .inl (List.mem_cons_of_mem _ hr)
      · exact .inl List.mem_cons_self
      · refine .inr ⟨hr, fun x hx => ?_⟩
        rcases List.mem_cons.mp hx with rfl | hx'
        · exact fun he => hk he.symm
        · exact hall x hx'
    · rintro (hr | ⟨hr, hall⟩)
      · rcases List.mem_cons.mp hr with rfl | hr'
        · exact .inr ⟨.inl rfl, hother⟩
        · exact .inl hr'
      · have hk : key r ≠ key s := fun he => hall s List.mem_cons_self he.symm
        exact .inr ⟨.inr ⟨hr, hk⟩, fun x hx => hall x (List.mem_cons_of_mem _ hx)⟩

theorem putAll_subset {s t : Table key} {rs : List ρ} (h : ∀ r ∈ s, r ∈ t) :
    ∀ r ∈ s.putAll rs, r ∈ t.putAll rs := by
  induction rs generalizing s t with
  | nil => exact h
  | cons x rs ih =>
    apply ih
    intro r hr
    rw [mem_put] at hr ⊢
    exact hr.imp_right fun hr => ⟨h r hr.1, hr.2⟩

/-- A row is written or was there. -/
theorem mem_or_mem_of_putAll {t : Table key} {rs : List ρ} {r : ρ} (h : r ∈ t.putAll rs) :
    r ∈ rs ∨ r ∈ t := by
  induction rs generalizing t with
  | nil => exact .inr h
  | cons s rs ih =>
    cases ih h with
    | inl hr => exact .inl (List.mem_cons_of_mem _ hr)
    | inr hr =>
      cases mem_put.mp hr with
      | inl heq => exact .inl (heq ▸ List.mem_cons_self)
      | inr hr => exact .inr hr.1

theorem mem_putAll_of_other {t : Table key} {rs : List ρ} {r : ρ} (h : ∀ s ∈ rs, key s ≠ key r) :
    r ∈ t.putAll rs ↔ r ∈ t := by
  induction rs generalizing t with
  | nil => exact Iff.rfl
  | cons s rs ih =>
    have hs : key s ≠ key r := h s List.mem_cons_self
    rw [putAll_cons, ih fun s hs => h s (List.mem_cons_of_mem _ hs), mem_put]
    constructor
    · rintro (rfl | hr)
      · exact absurd rfl hs
      · exact hr.1
    · intro hr
      exact .inr ⟨hr, hs.symm⟩

/-- Rows that cover every key of a table replace it. -/
theorem mem_putAll_of_cover {t : Table key} {rs : List ρ} (hn : (rs.map key).Nodup)
    (hcover : ∀ r ∈ t, ∃ s ∈ rs, key s = key r) {r : ρ} : r ∈ t.putAll rs ↔ r ∈ rs := by
  rw [mem_putAll hn]
  constructor
  · rintro (hr | ⟨hr, hall⟩)
    · exact hr
    · obtain ⟨s, hs, hk⟩ := hcover r hr
      exact absurd hk (hall s hs)
  · exact .inl

theorem map_put {κ' σ : Type} [DecidableEq κ'] {key' : σ → κ'} {f : ρ → σ}
    {hf : ∀ r s, key' (f r) = key' (f s) ↔ key r = key s} {t : Table key} {r : ρ} :
    ((t.put r).map f hf : Table key') = (t.map f hf).put (f r) := by
  suffices h : ((t.put r).map f hf : Table key').rows = ((t.map f hf).put (f r)).rows by
    cases h1 : ((t.put r).map f hf : Table key')
    cases h2 : ((t.map f hf).put (f r) : Table key')
    rw [h1, h2] at h
    cases h
    rfl
  cases h : t.get? (key r) with
  | none =>
    have hnone : ((t.map f hf : Table key').get? (key' (f r))) = none := by
      rw [get?_eq_none]
      rintro _ hmem heq
      obtain ⟨s, hs, rfl⟩ := List.mem_map.mp hmem
      exact get?_eq_none.mp h s hs ((hf s r).mp heq)
    rw [rows_put_of_new hnone, rows_map, rows_put_of_new h]
    simp
  | some s =>
    obtain ⟨hs, hk⟩ := get?_eq_some.mp h
    have hmem : f s ∈ (t.map f hf : Table key') := List.mem_map_of_mem hs
    rw [rows_put_of_mem hmem ((hf s r).mpr hk), rows_map, rows_put_of_mem hs hk]
    simp only [rows_map, List.map_map]
    apply List.map_congr_left
    intro x _
    by_cases hx : key x = key r
    · simp [hx, (hf x r).mpr hx]
    · have hx' : key' (f x) ≠ key' (f r) := fun heq => hx ((hf x r).mp heq)
      simp [hx, hx']

theorem map_putAll {κ' σ : Type} [DecidableEq κ'] {key' : σ → κ'} {f : ρ → σ}
    {hf : ∀ r s, key' (f r) = key' (f s) ↔ key r = key s} {t : Table key} {rs : List ρ} :
    ((t.putAll rs).map f hf : Table key') = (t.map f hf).putAll (rs.map f) := by
  induction rs generalizing t with
  | nil => rfl
  | cons r rs ih => rw [putAll_cons, ih, map_put, List.map_cons, putAll_cons]

/-- Deletion by key. -/
def erase (t : Table key) (k : κ) : Table key := t.filter (fun r => decide (key r ≠ k))

@[simp] theorem mem_erase {t : Table key} {k : κ} {r : ρ} :
    r ∈ t.erase k ↔ r ∈ t ∧ key r ≠ k := by
  simp [erase]

end Keyed

/-- Rows of which no two are selected are at most one. -/
theorem length_filter_le_one {t : Table key} {p : ρ → Bool}
    (h : ∀ r ∈ t, ∀ s ∈ t, p r = true → p s = true → r = s) : (t.rows.filter p).length ≤ 1 := by
  have hnodup : (t.rows.filter p).Nodup := t.nodup.of_map.filter _
  match hl : t.rows.filter p with
  | [] => simp
  | [_] => simp
  | r :: s :: _ =>
    rw [hl] at hnodup
    have hr : r ∈ t.rows ∧ p r = true := List.mem_filter.mp (by simp [hl])
    have hs : s ∈ t.rows ∧ p s = true := List.mem_filter.mp (by simp [hl])
    have hsame := h r hr.1 s hs.1 hr.2 hs.2
    simp [hsame] at hnodup

/-! ## Sums over a table -/

section Total

variable {M : Type} [AddCommMonoid M]

/-- The sum of `f` over all rows. -/
def total (t : Table key) (f : ρ → M) : M := (t.rows.map f).sum

@[simp] theorem total_empty (f : ρ → M) : (empty : Table key).total f = 0 := rfl

variable [DecidableEq κ]

/-- A row that is alone under its key comes first in some order of the list. -/
theorem map_sum_eq_add {l : List ρ} (hn : (l.map key).Nodup) {s : ρ} (hs : s ∈ l)
    (f : ρ → M) :
    (l.map f).sum = f s + ((l.filter (fun x => decide (key x ≠ key s))).map f).sum := by
  obtain ⟨a, b, rfl⟩ := List.append_of_mem hs
  simp only [List.map_append, List.map_cons, List.nodup_append, List.nodup_cons] at hn
  obtain ⟨-, ⟨hb, -⟩, hab⟩ := hn
  have ha : a.filter (fun x => decide (key x ≠ key s)) = a := by
    refine List.filter_eq_self.mpr (fun x hx => ?_)
    have := hab (key x) (List.mem_map_of_mem hx) (key s) (by simp)
    simpa using this
  have hb' : b.filter (fun x => decide (key x ≠ key s)) = b := by
    refine List.filter_eq_self.mpr (fun x hx => ?_)
    have : key x ≠ key s := fun he => hb (List.mem_map.mpr ⟨x, hx, he⟩)
    simpa using this
  have hs' : (s :: b).filter (fun x => decide (key x ≠ key s)) = b := by
    rw [List.filter_cons_of_neg (by simp), hb']
  rw [List.filter_append, ha, hs']
  simp [add_left_comm]

theorem total_erase {t : Table key} {r : ρ} (hr : r ∈ t) (f : ρ → M) :
    t.total f = f r + (t.erase (key r)).total f :=
  map_sum_eq_add t.nodup hr f

theorem erase_eq_self {t : Table key} {k : κ} (h : ∀ r ∈ t, key r ≠ k) :
    (t.erase k).rows = t.rows :=
  List.filter_eq_self.mpr (fun r hr => by simpa using h r hr)

omit [DecidableEq κ] in
/-- Sums do not see the order of the rows. -/
theorem total_eq_of_mem_iff {s t : Table key} (h : ∀ r, r ∈ s ↔ r ∈ t) (f : ρ → M) :
    s.total f = t.total f := by
  have hperm : s.rows.Perm t.rows :=
    (List.perm_ext_iff_of_nodup s.nodup.of_map t.nodup.of_map).mpr h
  exact (hperm.map f).sum_eq

/-- Overwriting exchanges the summand under one key and leaves the others. -/
theorem total_put (t : Table key) (r : ρ) (f : ρ → M) :
    (t.put r).total f = f r + (t.erase (key r)).total f := by
  have hr : r ∈ t.put r := mem_put.mpr (.inl rfl)
  rw [total_erase hr f]
  congr 1
  refine total_eq_of_mem_iff (fun s => ?_) f
  simp only [mem_erase, mem_put]
  constructor
  · rintro ⟨rfl | ⟨hs, hk⟩, hk'⟩
    · exact absurd rfl hk'
    · exact ⟨hs, hk⟩
  · rintro ⟨hs, hk⟩
    exact ⟨.inr ⟨hs, hk⟩, hk⟩

end Total

/-! ## Folds that may fail -/

section Fold

variable {β : Type} {f : β → ρ → Option β} (ok : β → Prop)

/-- Every state before an acceptable one is acceptable. -/
theorem ok_of_foldlM (hok : ∀ b r b', f b r = some b' → ok b' → ok b) {l : List ρ} {b b' : β}
    (h : l.foldlM f b = some b') (hb : ok b') : ok b := by
  induction l generalizing b with
  | nil =>
    obtain rfl : b = b' := by simpa using h
    exact hb
  | cons r l ih =>
    simp only [List.foldlM_cons, Option.bind_eq_bind, Option.bind_eq_some_iff] at h
    obtain ⟨c, hc, hrest⟩ := h
    exact hok b r c hc (ih hrest)

/-- What an acceptable result says of every row that was folded in. -/
theorem forall_of_foldlM {good : ρ → Prop}
    (hok : ∀ b r b', f b r = some b' → ok b' → ok b ∧ good r) {l : List ρ} {b b' : β}
    (h : l.foldlM f b = some b') (hb : ok b') : ok b ∧ ∀ r ∈ l, good r := by
  induction l generalizing b with
  | nil =>
    obtain rfl : b = b' := by simpa using h
    exact ⟨hb, by simp⟩
  | cons r l ih =>
    simp only [List.foldlM_cons, Option.bind_eq_bind, Option.bind_eq_some_iff] at h
    obtain ⟨c, hc, hrest⟩ := h
    obtain ⟨hokc, hgood⟩ := ih hrest
    obtain ⟨hokb, hr⟩ := hok b r c hc hokc
    exact ⟨hokb, List.forall_mem_cons.mpr ⟨hr, hgood⟩⟩

/-- Steps that may be exchanged on the way to an acceptable result make the order of the
rows irrelevant. -/
theorem foldlM_perm (hok : ∀ b r b', f b r = some b' → ok b' → ok b)
    (hswap : ∀ b r s c d, f b r = some c → f c s = some d → ok d →
      ∃ c', f b s = some c' ∧ f c' r = some d)
    {l l' : List ρ} (hp : l.Perm l') {b b' : β} (h : l.foldlM f b = some b') (hb : ok b') :
    l'.foldlM f b = some b' := by
  induction hp generalizing b with
  | nil => exact h
  | cons r _ ih =>
    simp only [List.foldlM_cons, Option.bind_eq_bind, Option.bind_eq_some_iff] at h ⊢
    obtain ⟨c, hc, hrest⟩ := h
    exact ⟨c, hc, ih hrest⟩
  | swap r s l =>
    simp only [List.foldlM_cons, Option.bind_eq_bind, Option.bind_eq_some_iff] at h ⊢
    obtain ⟨c, hc, d, hd, hrest⟩ := h
    obtain ⟨c', hc', hd'⟩ := hswap b s r c d hc hd (ok_of_foldlM ok hok hrest hb)
    exact ⟨c', hc', d, hd', hrest⟩
  | trans _ _ ih ih' => exact ih' (ih h)

end Fold

section TotalOrdered

variable {M : Type} [AddCommMonoid M] [PartialOrder M] [IsOrderedAddMonoid M]

/-- A sum of non-negative terms only falls when rows are deleted. -/
theorem total_erase_le [DecidableEq κ] {t : Table key} {f : ρ → M} (h : ∀ r ∈ t, 0 ≤ f r)
    (k : κ) : (t.erase k).total f ≤ t.total f := by
  cases hg : t.get? k with
  | none =>
    have : (t.erase k).rows = t.rows := erase_eq_self (get?_eq_none.mp hg)
    simp [total, this]
  | some r =>
    obtain ⟨hr, rfl⟩ := get?_eq_some.mp hg
    rw [total_erase hr f]
    exact le_add_of_nonneg_left (h r hr)

end TotalOrdered

end Table

end Library
