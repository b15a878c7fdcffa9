import Mathlib.Data.List.Pairwise
import Mathlib.Order.Basic

/-!
# Pages of a list, newest first

A server answers with the newest items it lists at or below a cursor. What such a page leaves
out lies below all of it, and nothing is left out of a page that is not full.
-/
namespace Library.Paging

variable {α : Type*} (key : α → ℕ) (size : ℕ) (before : Option ℕ) (listed : α → Bool)
  (items : List α)

/-- The items that a page is taken from. -/
def candidates : List α := items.filter (fun x => listed x && before.all (fun b => decide (key x ≤ b)))

/-- The newest `size` items; `items` has the newest first. -/
def page : List α := (candidates key before listed items).take size

variable {key size before listed items} {x : α}

theorem mem_candidates :
    x ∈ candidates key before listed items ↔
      x ∈ items ∧ listed x = true ∧ ∀ b, before = some b → key x ≤ b := by
  unfold candidates
  rw [List.mem_filter, Bool.and_eq_true]
  cases before <;> simp

theorem mem_of_page (h : x ∈ page key size before listed items) :
    x ∈ items ∧ listed x = true ∧ ∀ b, before = some b → key x ≤ b :=
  mem_candidates.mp (List.mem_of_mem_take h)

theorem pairwise_page (h : items.Pairwise (fun a b => key b < key a)) :
    (page key size before listed items).Pairwise (fun a b => key b < key a) :=
  (h.sublist List.filter_sublist).sublist (List.take_sublist _ _)

/-- A listed item is on the page unless the page is full of newer ones. -/
theorem mem_page (h : items.Pairwise (fun a b => key b < key a)) (hx : x ∈ items)
    (hlisted : listed x = true) (hbefore : ∀ b, before = some b → key x ≤ b)
    (hreached : (page key size before listed items).length < size ∨
      ∃ y ∈ page key size before listed items, key y ≤ key x) :
    x ∈ page key size before listed items := by
  have hmem : x ∈ candidates key before listed items := mem_candidates.mpr ⟨hx, hlisted, hbefore⟩
  have hsplit := List.take_append_drop size (candidates key before listed items)
  rw [← hsplit] at hmem
  cases List.mem_append.mp hmem with
  | inl htaken => exact htaken
  | inr hdropped =>
    have hsorted : (candidates key before listed items).Pairwise (fun a b => key b < key a) :=
      h.sublist List.filter_sublist
    rw [← hsplit, List.pairwise_append] at hsorted
    cases hreached with
    | inl hshort =>
      have hlong := List.length_pos_of_mem hdropped
      rw [List.length_drop] at hlong
      rw [page, List.length_take] at hshort
      omega
    | inr hbelow =>
      obtain ⟨y, hy, hle⟩ := hbelow
      exact absurd (hsorted.2.2 y hy x hdropped) (Nat.not_lt.mpr hle)

end Library.Paging
