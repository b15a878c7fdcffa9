import Mathlib.Algebra.Order.Field.Rat
import Mathlib.Data.List.Nodup
import Mathlib.Data.List.Pairwise
import Mathlib.Tactic.Linarith

/-!
# Claims that are taken over

One thing is claimed by one owner after the other, the newest first. A claim is taken over only
after the patience of the next owner, so no two claims have one time, and a time tells the owner.
-/
namespace Library.Takeover

structure Claim (ι : Type*) where
  owner : ι
  at_ : ℤ
  patience : ℚ
  positive : 0 < patience

variable {ι : Type*}

/-- Every claim was made with patience towards all the older ones. -/
def Succession (claims : List (Claim ι)) : Prop :=
  claims.Pairwise (fun newer older => newer.patience ≤ ((newer.at_ - older.at_ : ℤ) : ℚ))

theorem later {newer older : Claim ι} (h : newer.patience ≤ ((newer.at_ - older.at_ : ℤ) : ℚ)) :
    older.at_ < newer.at_ := by
  have hpositive : (0 : ℚ) < ((newer.at_ - older.at_ : ℤ) : ℚ) := newer.positive.trans_le h
  have hgap : 0 < newer.at_ - older.at_ := by exact_mod_cast hpositive
  omega

variable {claims : List (Claim ι)} {c head : Claim ι}

theorem Succession.single (c : Claim ι) : Succession [c] := List.pairwise_singleton _ _

/-- A claim that waited for the last one waited for all of them. -/
theorem Succession.cons (h : Succession (head :: claims))
    (hpatience : c.patience ≤ ((c.at_ - head.at_ : ℤ) : ℚ)) : Succession (c :: head :: claims) := by
  refine List.pairwise_cons.mpr ⟨fun older holder => ?_, h⟩
  cases List.mem_cons.mp holder with
  | inl heq => exact heq ▸ hpatience
  | inr hmem =>
    have hlater := later ((List.pairwise_cons.mp h).1 older hmem)
    have hmore : ((c.at_ - head.at_ : ℤ) : ℚ) ≤ ((c.at_ - older.at_ : ℤ) : ℚ) := by
      exact_mod_cast (by omega : c.at_ - head.at_ ≤ c.at_ - older.at_)
    exact hpatience.trans hmore

theorem Succession.at_le (h : Succession (head :: claims)) (hc : c ∈ head :: claims) :
    c.at_ ≤ head.at_ := by
  cases List.mem_cons.mp hc with
  | inl heq => exact heq ▸ le_rfl
  | inr hmem => exact (later ((List.pairwise_cons.mp h).1 c hmem)).le

/-- Claims of one time are one claim. -/
theorem Succession.eq_of_at {c' : Claim ι} (h : Succession claims) (hc : c ∈ claims)
    (hc' : c' ∈ claims) (hat : c.at_ = c'.at_) : c = c' := by
  have hne : claims.Pairwise (fun a b => a.at_ ≠ b.at_) :=
    h.imp (fun hgap => (later hgap).ne')
  have hnodup : (claims.map (·.at_)).Nodup := List.pairwise_map.mpr hne
  exact List.inj_on_of_nodup_map hnodup hc hc' hat

end Library.Takeover
