import Mathlib.Order.Basic

/-!
# Halving a Range

A search for a place by halving: the place in the middle of what is left is looked at, and
the half in front of it, the half behind it or nothing is left. Nothing here is specific to
one system, and nothing is assumed of the order of the places.

## Main definitions

* `mid`: The middle of a range.
* `Visits`: The places that are looked at.

## Theorems

* `visits_iff`: What is looked at, by the answer in the middle.
* `Visits.bounds`: Every place that is looked at is in the range.
* `visits_congr`: Only the answers at these places matter.
* `hit_unique`: A search has one hit.
* `hit_or_absent`: A search that ends without a hit has passed over nothing that is sought.
-/

namespace Halving

/-- The middle of the places from `lo` up to `hi`, with `hi` left out. -/
def mid (lo hi : Nat) : Nat := (lo + hi - 1) / 2

theorem mid_bounds {lo hi : Nat} (h : lo < hi) : lo ≤ mid lo hi ∧ mid lo hi < hi := by
  unfold mid
  omega

/-- A place that is looked at. The answer `lt` at a place sends the search in front of it,
`gt` behind it, and `eq` ends it. -/
inductive Visits (cmp : Nat → Ordering) : Nat → Nat → Nat → Prop where
  | here {lo hi : Nat} (h : lo < hi) : Visits cmp lo hi (mid lo hi)
  | front {lo hi i : Nat} (h : lo < hi) (hcmp : cmp (mid lo hi) = .lt)
      (hrest : Visits cmp lo (mid lo hi) i) : Visits cmp lo hi i
  | behind {lo hi i : Nat} (h : lo < hi) (hcmp : cmp (mid lo hi) = .gt)
      (hrest : Visits cmp (mid lo hi + 1) hi i) : Visits cmp lo hi i

variable {cmp cmp' : Nat → Ordering} {lo hi i : Nat}

theorem not_visits_of_le (h : hi ≤ lo) : ¬ Visits cmp lo hi i := by
  intro hv
  -- Each way to look at a place needs one.
  cases hv <;> omega

/-- What is looked at, by the answer in the middle. -/
theorem visits_iff (h : lo < hi) :
    Visits cmp lo hi i ↔ i = mid lo hi ∨ (cmp (mid lo hi) = .lt ∧ Visits cmp lo (mid lo hi) i) ∨
      (cmp (mid lo hi) = .gt ∧ Visits cmp (mid lo hi + 1) hi i) := by
  constructor
  · intro hv
    cases hv with
    | here => exact Or.inl rfl
    | front _ hcmp hrest => exact Or.inr (Or.inl ⟨hcmp, hrest⟩)
    | behind _ hcmp hrest => exact Or.inr (Or.inr ⟨hcmp, hrest⟩)
  · rintro (rfl | ⟨hcmp, hrest⟩ | ⟨hcmp, hrest⟩)
    · exact Visits.here h
    · exact Visits.front h hcmp hrest
    · exact Visits.behind h hcmp hrest

theorem Visits.bounds (hv : Visits cmp lo hi i) : lo ≤ i ∧ i < hi := by
  induction hv with
  | here h => exact mid_bounds h
  | front h _ _ ih => exact ⟨ih.1, Nat.lt_trans ih.2 (mid_bounds h).2⟩
  | behind h _ _ ih => exact ⟨Nat.le_trans (mid_bounds h).1 (Nat.le_of_succ_le ih.1), ih.2⟩

/-- The same answers along the way look at the same places. -/
theorem Visits.congr (hv : Visits cmp lo hi i) (h : ∀ j, Visits cmp lo hi j → cmp j = cmp' j) :
    Visits cmp' lo hi i := by
  induction hv with
  | here hlt => exact Visits.here hlt
  | front hlt hcmp hrest ih =>
      -- The answer in the middle is the same, so the same half is taken.
      rw [h _ (Visits.here hlt)] at hcmp
      refine Visits.front hlt hcmp (ih fun j hj => h j ?_)
      exact Visits.front hlt ((h _ (Visits.here hlt)).trans hcmp) hj
  | behind hlt hcmp hrest ih =>
      rw [h _ (Visits.here hlt)] at hcmp
      refine Visits.behind hlt hcmp (ih fun j hj => h j ?_)
      exact Visits.behind hlt ((h _ (Visits.here hlt)).trans hcmp) hj

/-- Only the answers at the places that are looked at matter. -/
theorem visits_congr (h : ∀ j, Visits cmp lo hi j → cmp j = cmp' j) :
    Visits cmp lo hi i ↔ Visits cmp' lo hi i := by
  refine ⟨fun hv => hv.congr h, fun hv => ?_⟩
  -- the other way round, by what is looked at from the middle on
  induction hv with
  | here hlt => exact Visits.here hlt
  | front hlt hcmp hrest ih =>
      -- The answer of the first search sends it to the same half.
      have hmid := (h _ (Visits.here hlt)).trans hcmp
      exact Visits.front hlt hmid (ih fun j hj => h j (Visits.front hlt hmid hj))
  | behind hlt hcmp hrest ih =>
      have hmid := (h _ (Visits.here hlt)).trans hcmp
      exact Visits.behind hlt hmid (ih fun j hj => h j (Visits.behind hlt hmid hj))

/-- A search has one hit. -/
theorem hit_unique {j : Nat} (hi' : Visits cmp lo hi i) (heq : cmp i = .eq)
    (hj : Visits cmp lo hi j) (heq' : cmp j = .eq) : i = j := by
  induction hi' with
  | here h =>
      -- A hit in the middle leaves no half to look in.
      rw [visits_iff h, heq] at hj
      rcases hj with rfl | ⟨hc, -⟩ | ⟨hc, -⟩
      · rfl
      · exact nomatch hc
      · exact nomatch hc
  | front h hcmp _ ih =>
      -- Both hits are in the half that the answer leads to, as the middle is none.
      rw [visits_iff h, hcmp] at hj
      rcases hj with rfl | ⟨-, hj⟩ | ⟨hc, -⟩
      · exact nomatch hcmp.symm.trans heq'
      · exact ih heq hj
      · exact nomatch hc
  | behind h hcmp _ ih =>
      rw [visits_iff h, hcmp] at hj
      rcases hj with rfl | ⟨hc, -⟩ | ⟨-, hj⟩
      · exact nomatch hcmp.symm.trans heq'
      · exact nomatch hc
      · exact ih heq hj

/-- Where every answer along the way points to what is sought, a search that does not end at
a hit has passed over nothing that is sought. -/
theorem hit_or_absent (Sought : Nat → Prop) (lo hi : Nat)
    (hlt : ∀ j, Visits cmp lo hi j → cmp j = .lt → ∀ k, j ≤ k → k < hi → ¬ Sought k)
    (hgt : ∀ j, Visits cmp lo hi j → cmp j = .gt → ∀ k, lo ≤ k → k ≤ j → ¬ Sought k) :
    (∃ i, Visits cmp lo hi i ∧ cmp i = .eq) ∨ ∀ k, lo ≤ k → k < hi → ¬ Sought k := by
  induction hn : hi - lo using Nat.strongRecOn generalizing lo hi with
  | ind n ih =>
      by_cases h : lo < hi
      · rcases mid_bounds h with ⟨hlo, hhi⟩
        cases hcmp : cmp (mid lo hi) with
        | eq => exact Or.inl ⟨_, Visits.here h, hcmp⟩
        | lt =>
            -- What is behind the middle is ruled out by the answer, the rest by the induction.
            have hfront : ∀ j, Visits cmp lo (mid lo hi) j → Visits cmp lo hi j :=
              fun j hj => Visits.front h hcmp hj
            rcases ih (mid lo hi - lo) (by omega) lo (mid lo hi)
              (fun j hj hc k hjk hk => hlt j (hfront j hj) hc k hjk (Nat.lt_trans hk hhi))
              (fun j hj hc k hk hkj => hgt j (hfront j hj) hc k hk hkj) rfl with
              ⟨i, hi', hc⟩ | habsent
            · exact Or.inl ⟨i, hfront i hi', hc⟩
            · refine Or.inr fun k hk hkhi => ?_
              by_cases hkm : k < mid lo hi
              · exact habsent k hk hkm
              · exact hlt _ (Visits.here h) hcmp k (Nat.le_of_not_lt hkm) hkhi
        | gt =>
            -- What is in front of the middle is ruled out by the answer.
            have hbehind : ∀ j, Visits cmp (mid lo hi + 1) hi j → Visits cmp lo hi j :=
              fun j hj => Visits.behind h hcmp hj
            rcases ih (hi - (mid lo hi + 1)) (by omega) (mid lo hi + 1) hi
              (fun j hj hc k hjk hk => hlt j (hbehind j hj) hc k hjk hk)
              (fun j hj hc k hk hkj => hgt j (hbehind j hj) hc k (by omega) hkj) rfl with
              ⟨i, hi', hc⟩ | habsent
            · exact Or.inl ⟨i, hbehind i hi', hc⟩
            · refine Or.inr fun k hk hkhi => ?_
              by_cases hkm : mid lo hi < k
              · exact habsent k hkm hkhi
              · exact hgt _ (Visits.here h) hcmp k hk (Nat.le_of_not_lt hkm)
      · exact Or.inr fun k hk hkhi => absurd (Nat.lt_of_le_of_lt hk hkhi) h

end Halving
