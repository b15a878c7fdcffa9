import Mathlib.Order.Lattice
import Mathlib.Data.List.Induction
import Mathlib.Order.Defs.LinearOrder

/-!
# Entries that arrive out of order

Entries arrive one after another, each with a time of its own. An entry that is older than
one before it comes too late; the others are the records, whose times never decrease. The
newest entry is the last record: it is as late as any other, and of those that are as late
it arrived last.
-/
namespace Library

variable {α κ : Type} [LinearOrder κ] (key : α → κ)

/-- An entry counts unless it is older than the last one that counts. -/
def keepRecord (kept : List α) (x : α) : List α :=
  match kept.getLast? with
  | none => [x]
  | some y => if key y ≤ key x then kept ++ [x] else kept

/-- The entries that did not come too late. -/
def records (l : List α) : List α := l.foldl (keepRecord key) []

def newest (l : List α) : Option α := (records key l).getLast?

@[simp] theorem records_nil : records key ([] : List α) = [] := rfl

@[simp] theorem newest_nil : newest key ([] : List α) = none := rfl

theorem records_snoc (l : List α) (x : α) :
    records key (l ++ [x]) = keepRecord key (records key l) x := by
  unfold records
  rw [List.foldl_append]
  rfl

section Records

variable {key} {l : List α} {x y : α}

theorem records_of_later (h : ∀ y ∈ newest key l, key y ≤ key x) :
    records key (l ++ [x]) = records key l ++ [x] := by
  rw [records_snoc]
  unfold keepRecord
  cases hlast : (records key l).getLast? with
  | none =>
    rw [List.getLast?_eq_none_iff.mp hlast]
    rfl
  | some y => exact if_pos (h y hlast)

theorem newest_of_later (h : ∀ y ∈ newest key l, key y ≤ key x) :
    newest key (l ++ [x]) = some x := by
  unfold newest
  rw [records_of_later h]
  exact List.getLast?_concat

theorem records_of_old (hy : newest key l = some y) (h : key x < key y) :
    records key (l ++ [x]) = records key l := by
  rw [records_snoc]
  unfold keepRecord
  have hlast : (records key l).getLast? = some y := hy
  rw [hlast]
  exact if_neg (not_le.mpr h)

theorem newest_of_old (hy : newest key l = some y) (h : key x < key y) :
    newest key (l ++ [x]) = some y := by
  unfold newest
  rw [records_of_old hy h]
  exact hy

/-- Either the entry is the newest or an older one arrived before it. -/
theorem later_or_old (key : α → κ) (l : List α) (x : α) :
    (∀ y ∈ newest key l, key y ≤ key x) ∨ ∃ y, newest key l = some y ∧ key x < key y := by
  cases hy : newest key l with
  | none => exact Or.inl (fun y h => by simp at h)
  | some y =>
    rcases le_or_gt (key y) (key x) with h | h
    · refine Or.inl (fun z hz => ?_)
      rwa [← Option.mem_some.mp hz]
    · exact Or.inr ⟨y, rfl, h⟩

theorem newest_eq_none : newest key l = none ↔ l = [] := by
  constructor
  · intro h
    induction l using List.reverseRecOn with
    | nil => rfl
    | append_singleton l x =>
      rcases later_or_old key l x with hlater | ⟨y, hy, hold⟩
      · rw [newest_of_later hlater] at h
        cases h
      · rw [newest_of_old hy hold] at h
        cases h
  · rintro rfl
    rfl

/-- `x` is as late as all before it, and later than all after it. -/
def Newest (key : α → κ) (l : List α) (x : α) : Prop :=
  ∃ before after, l = before ++ x :: after ∧ (∀ y ∈ before, key y ≤ key x) ∧
    ∀ y ∈ after, key y < key x

theorem Newest.le (h : Newest key l x) : ∀ y ∈ l, key y ≤ key x := by
  obtain ⟨before, after, rfl, hbefore, hafter⟩ := h
  intro y hy
  rcases List.mem_append.mp hy with hy | hy
  · exact hbefore y hy
  · rcases List.mem_cons.mp hy with rfl | hy
    · exact le_rfl
    · exact (hafter y hy).le

theorem Newest.unique (hx : Newest key l x) (hy : Newest key l y) : x = y := by
  obtain ⟨before, after, rfl, hbefore, hafter⟩ := hx
  obtain ⟨before', after', heq, hbefore', hafter'⟩ := hy
  rcases List.append_eq_append_iff.mp heq with ⟨mid, rfl, hmid⟩ | ⟨mid, rfl, hmid⟩
  · cases mid with
    | nil => exact (List.cons.inj hmid).1
    | cons z mid =>
      -- Then `x` arrived before `y`, which would have to be older and not older.
      obtain ⟨rfl, rfl⟩ := List.cons.inj hmid
      have hlt := hafter y (by simp)
      exact absurd (hbefore' x (by simp)) (not_le.mpr hlt)
  · cases mid with
    | nil => exact (List.cons.inj hmid).1.symm
    | cons z mid =>
      obtain ⟨rfl, rfl⟩ := List.cons.inj hmid
      have hlt := hafter' x (by simp)
      exact absurd (hbefore y (by simp)) (not_le.mpr hlt)

theorem newest_spec (h : newest key l = some x) : Newest key l x := by
  induction l using List.reverseRecOn generalizing x with
  | nil => cases h
  | append_singleton l z ih =>
    rcases later_or_old key l z with hlater | ⟨y, hy, hold⟩
    · rw [newest_of_later hlater] at h
      cases h
      refine ⟨l, [], rfl, fun y hy => ?_, fun y hy => absurd hy List.not_mem_nil⟩
      cases hnewest : newest key l with
      | none =>
        rw [newest_eq_none.mp hnewest] at hy
        exact absurd hy List.not_mem_nil
      | some w => exact ((ih hnewest).le y hy).trans (hlater w hnewest)
    · rw [newest_of_old hy hold] at h
      cases h
      obtain ⟨before, after, rfl, hbefore, hafter⟩ := ih hy
      refine ⟨before, after ++ [z], by simp, hbefore, fun w hw => ?_⟩
      rcases List.mem_append.mp hw with hw | hw
      · exact hafter w hw
      · rw [List.mem_singleton.mp hw]
        exact hold

theorem newest_eq_some : newest key l = some x ↔ Newest key l x := by
  refine ⟨newest_spec, fun h => ?_⟩
  cases hy : newest key l with
  | none =>
    obtain ⟨before, after, hl, -⟩ := h
    rw [newest_eq_none.mp hy] at hl
    simp at hl
  | some y => rw [(newest_spec hy).unique h]

end Records

end Library
