import MarketSystem.Library.Refusal
import Mathlib.Data.List.Sort

/-!
# Lists compared by their sorted images

Two lists whose items are written one by one, by a writer that may refuse, and whose results are
sorted: where what is written can be read back, the sorted results are the same exactly when the
lists are permutations of one another.
-/
namespace Library

variable {α β : Type} {f : α → Except String β} {g : β → Except String α}

/-- A permutation of what is written is written as a permutation. -/
theorem mapM_perm {xs xs' : List α} (hperm : xs.Perm xs') :
    ∀ {ys}, xs.mapM f = .ok ys → ∃ ys', xs'.mapM f = .ok ys' ∧ ys.Perm ys' := by
  induction hperm with
  | nil =>
    intro ys h
    exact ⟨ys, h, List.Perm.refl ys⟩
  | cons x _ ih =>
    intro ys h
    rw [List.mapM_cons] at h
    obtain ⟨first, hfirst, h⟩ := bind_eq_ok.mp h
    obtain ⟨rest, hrest, h⟩ := bind_eq_ok.mp h
    obtain rfl : first :: rest = ys := Except.ok.inj h
    obtain ⟨rest', hrest', hperm⟩ := ih hrest
    refine ⟨first :: rest', ?_, hperm.cons first⟩
    rw [List.mapM_cons, hfirst, hrest']
    rfl
  | swap x y xs =>
    intro ys h
    rw [List.mapM_cons, List.mapM_cons] at h
    obtain ⟨first, hfirst, h⟩ := bind_eq_ok.mp h
    obtain ⟨tail, htail, h⟩ := bind_eq_ok.mp h
    obtain ⟨second, hsecond, htail⟩ := bind_eq_ok.mp htail
    obtain ⟨rest, hrest, htail⟩ := bind_eq_ok.mp htail
    obtain rfl : second :: rest = tail := Except.ok.inj htail
    obtain rfl : first :: second :: rest = ys := Except.ok.inj h
    refine ⟨second :: first :: rest, ?_, List.Perm.swap second first rest⟩
    rw [List.mapM_cons, List.mapM_cons, hsecond, hfirst, hrest]
    rfl
  | trans _ _ ih ih' =>
    intro ys h
    obtain ⟨ys', h', hperm⟩ := ih h
    obtain ⟨ys'', h'', hperm'⟩ := ih' h'
    exact ⟨ys'', h'', hperm.trans hperm'⟩

/-- What is written is read back. -/
theorem mapM_back (hback : ∀ x y, f x = .ok y → g y = .ok x) {xs : List α} :
    ∀ {ys}, xs.mapM f = .ok ys → ys.mapM g = .ok xs := by
  induction xs with
  | nil =>
    intro ys h
    obtain rfl : [] = ys := Except.ok.inj h
    rfl
  | cons x xs ih =>
    intro ys h
    rw [List.mapM_cons] at h
    obtain ⟨first, hfirst, h⟩ := bind_eq_ok.mp h
    obtain ⟨rest, hrest, h⟩ := bind_eq_ok.mp h
    obtain rfl : first :: rest = ys := Except.ok.inj h
    rw [List.mapM_cons, hback x first hfirst, ih hrest]
    rfl

/-- Sorting leaves of a list only what it holds. -/
theorem insertionSort_eq_iff [LinearOrder β] {ys ys' : List β} :
    ys.insertionSort (· ≤ ·) = ys'.insertionSort (· ≤ ·) ↔ ys.Perm ys' := by
  constructor
  · intro h
    have hleft := List.perm_insertionSort (· ≤ ·) ys
    have hright := List.perm_insertionSort (· ≤ ·) ys'
    rw [h] at hleft
    exact hleft.symm.trans hright
  · intro h
    have hperm := ((List.perm_insertionSort (· ≤ ·) ys).trans h).trans
      (List.perm_insertionSort (· ≤ ·) ys').symm
    exact hperm.eq_of_pairwise' (List.pairwise_insertionSort (· ≤ ·) ys)
      (List.pairwise_insertionSort (· ≤ ·) ys')

theorem sorted_images_eq_iff [LinearOrder β] (hback : ∀ x y, f x = .ok y → g y = .ok x)
    {xs xs' : List α} {ys ys' : List β} (h : xs.mapM f = .ok ys) (h' : xs'.mapM f = .ok ys') :
    ys.insertionSort (· ≤ ·) = ys'.insertionSort (· ≤ ·) ↔ xs.Perm xs' := by
  rw [insertionSort_eq_iff]
  constructor
  · intro hperm
    obtain ⟨back, hread, hxs⟩ := mapM_perm hperm (mapM_back hback h)
    rw [mapM_back hback h'] at hread
    obtain rfl := Except.ok.inj hread
    exact hxs
  · intro hperm
    obtain ⟨image, hwritten, hys⟩ := mapM_perm hperm h
    rw [h'] at hwritten
    obtain rfl := Except.ok.inj hwritten
    exact hys

end Library
