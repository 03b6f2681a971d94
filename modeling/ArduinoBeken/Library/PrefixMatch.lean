import Mathlib.Data.List.Basic
import Mathlib.Data.List.Infix
import Mathlib.Tactic.Common

/-!
# Searching a Text that Is Read Once

A search for a pattern in a text whose items come one at a time and are not kept. All it has
to know of the text so far is how much of the pattern stands at its end, as much as possible:
`Longest`. With one more item, the longest part is one longer, or it is found among the
shorter parts that end the one there was (`Longest.next`); `fallback` finds it by trying them
from the longest down. The pattern occurs in the text as soon as all of it stands at the end
(`Longest.length_iff`). Nothing here is specific to one system.

## Main definitions

* `Longest`: How much of a pattern ends a text.
* `fallback`: The longest shorter part that the item extends.
* `next`: How much ends the text with one more item.
* `FirstMatch`: The first of several patterns that a text has come to.

## Theorems

* `fallback_spec`: What the shorter parts are.
* `Longest.next`: One more item.
* `FirstMatch.unique`: There is one first match.
-/

namespace PrefixMatch

variable {α : Type*}

/-- So many items of the pattern end the text, and no more. -/
structure Longest (p t : List α) (k : Nat) : Prop where
  le : k ≤ p.length
  ends : p.take k <:+ t
  max : ∀ j ≤ p.length, p.take j <:+ t → j ≤ k

/-- The text has come to the `i`-th pattern for the first time with its first `n` items, and
to no pattern before the `i`-th. -/
structure FirstMatch (ps : List (List α)) (t : List α) (n i : Nat) : Prop where
  le : n ≤ t.length
  ends : ∃ p, ps[i]? = some p ∧ p <:+ t.take n
  first : ∀ m ≤ n, ∀ j p, ps[j]? = some p → p <:+ t.take m → m = n ∧ i ≤ j

section

variable [DecidableEq α]

/-- The pattern's first `j` items are those before its `orig`-th. -/
def overlaps (p : List α) (orig j : Nat) : Bool :=
  (List.range j).all fun i => p[i]? == p[i + (orig - j)]?

/-- Tries the shorter parts from the longest down: one that ends the first `orig` items and
is followed by the item. -/
def fallback (p : List α) (a : α) (orig : Nat) : Nat → Nat
  | 0 => 0
  | j + 1 =>
    if p[j]? = some a then
      if j = 0 then 1
      else if overlaps p orig j then j + 1 else fallback p a orig j
    else fallback p a orig j

/-- How much of the pattern ends the text with one more item. -/
def next (p : List α) (k : Nat) (a : α) : Nat :=
  if p[k]? = some a then k + 1
  else if k = 0 then 0 else fallback p a k k

end

/-! ### Parts of the pattern -/

theorem overlaps_iff [DecidableEq α] (p : List α) {orig j : Nat} (hj : j ≤ orig)
    (horig : orig ≤ p.length) : overlaps p orig j = true ↔ p.take j <:+ p.take orig := by
  rw [overlaps, List.all_eq_true]
  have hlen : (p.take orig).length = orig := by
    rw [List.length_take]
    omega
  have htake : (p.take j).length = j := by
    rw [List.length_take]
    omega
  -- a part ends a text exactly if it agrees with the text's own end
  rw [List.suffix_iff_eq_drop, hlen, htake]
  constructor
  · intro h
    apply List.ext_getElem?
    intro i
    rw [List.getElem?_take, List.getElem?_drop, List.getElem?_take]
    by_cases hi : i < j
    · rw [if_pos hi, if_pos (by omega), Nat.add_comm]
      exact beq_iff_eq.1 (h i (List.mem_range.2 hi))
    · rw [if_neg hi, if_neg (by omega)]
  · intro h i hi
    have hi := List.mem_range.1 hi
    have heq := congrArg (fun l => l[i]?) h
    simp only [List.getElem?_take, List.getElem?_drop] at heq
    rw [if_pos hi, if_pos (by omega), Nat.add_comm] at heq
    exact beq_iff_eq.2 heq

/-- A part that ends a text with one more item is one longer than a part that ends the
    text. -/
theorem take_succ_suffix_iff {p : List α} (t : List α) (a : α) {j : Nat} (hj : j < p.length) :
    p.take (j + 1) <:+ t ++ [a] ↔ p[j]? = some a ∧ p.take j <:+ t := by
  rw [List.take_succ_eq_append_getElem hj, List.suffix_concat_iff, List.getElem?_eq_getElem hj,
    Option.some_inj]
  constructor
  · rintro (hnil | ⟨u, hu, hsuf⟩)
    · exact absurd hnil (List.append_ne_nil_of_right_ne_nil _ (List.cons_ne_nil _ _))
    · obtain ⟨hu, ha⟩ := List.append_inj' hu rfl
      rw [hu]
      exact ⟨List.singleton_inj.1 ha, hsuf⟩
  · rintro ⟨ha, hsuf⟩
    exact Or.inr ⟨p.take j, by rw [ha], hsuf⟩

theorem Longest.nil (p : List α) : Longest p [] 0 where
  le := Nat.zero_le _
  ends := List.nil_suffix
  max j hj hsuf := by
    have hnil := List.suffix_nil.1 hsuf
    rw [List.take_eq_nil_iff] at hnil
    rcases hnil with hj0 | hp
    · exact Nat.le_of_eq hj0
    · rw [hp] at hj
      exact hj

/-- All of the pattern ends the text, if all of it is the longest part that does. -/
theorem Longest.length_iff {p t : List α} {k : Nat} (h : Longest p t k) :
    k = p.length ↔ p <:+ t := by
  constructor
  · intro hk
    have hends := h.ends
    rwa [hk, List.take_length] at hends
  · intro hsuf
    exact Nat.le_antisymm h.le (h.max _ (Nat.le_refl _) (by rwa [List.take_length]))

section

variable [DecidableEq α]

/-- What is found among the shorter parts is one longer than the longest of them that ends the
    first `orig` items and is followed by the item. -/
theorem fallback_spec (p : List α) (a : α) {orig : Nat} (horig : orig ≤ p.length) (j : Nat)
    (hj : j ≤ orig) :
    (fallback p a orig j = 0 ∨ ∃ i < j, fallback p a orig j = i + 1 ∧ p[i]? = some a ∧
        p.take i <:+ p.take orig) ∧
      ∀ i < j, p[i]? = some a → p.take i <:+ p.take orig → i + 1 ≤ fallback p a orig j := by
  induction j with
  | zero => exact ⟨Or.inl rfl, fun i hi => absurd hi (Nat.not_lt_zero i)⟩
  | succ j ih =>
      obtain ⟨hshape, hmax⟩ := ih (by omega)
      -- a part that does not do is passed over, and the rest is below it
      have hpass : fallback p a orig (j + 1) = fallback p a orig j →
          (p[j]? = some a → ¬p.take j <:+ p.take orig) →
          (fallback p a orig (j + 1) = 0 ∨ ∃ i < j + 1, fallback p a orig (j + 1) = i + 1 ∧
            p[i]? = some a ∧ p.take i <:+ p.take orig) ∧
          ∀ i < j + 1, p[i]? = some a → p.take i <:+ p.take orig →
            i + 1 ≤ fallback p a orig (j + 1) := by
        intro heq hnot
        rw [heq]
        refine ⟨hshape.imp_right fun ⟨i, hi, h⟩ => ⟨i, by omega, h⟩, ?_⟩
        intro i hi ha hsuf
        rcases Nat.lt_succ_iff_lt_or_eq.1 hi with hi | rfl
        · exact hmax i hi ha hsuf
        · exact absurd hsuf (hnot ha)
      -- the part that does is the longest there is
      have hfound : fallback p a orig (j + 1) = j + 1 → p[j]? = some a →
          p.take j <:+ p.take orig →
          (fallback p a orig (j + 1) = 0 ∨ ∃ i < j + 1, fallback p a orig (j + 1) = i + 1 ∧
            p[i]? = some a ∧ p.take i <:+ p.take orig) ∧
          ∀ i < j + 1, p[i]? = some a → p.take i <:+ p.take orig →
            i + 1 ≤ fallback p a orig (j + 1) := by
        intro heq ha hsuf
        refine ⟨Or.inr ⟨j, Nat.lt_succ_self j, heq, ha, hsuf⟩, ?_⟩
        intro i hi _ _
        rw [heq]
        omega
      by_cases ha : p[j]? = some a
      · by_cases h0 : j = 0
        · refine hfound ?_ ha ?_
          · rw [fallback, if_pos ha, if_pos h0, h0]
          · rw [h0]
            exact List.nil_suffix
        · by_cases hov : overlaps p orig j = true
          · refine hfound ?_ ha ((overlaps_iff p (by omega) horig).1 hov)
            rw [fallback, if_pos ha, if_neg h0, if_pos hov]
          · refine hpass ?_ fun _ hsuf => hov ((overlaps_iff p (by omega) horig).2 hsuf)
            rw [fallback, if_pos ha, if_neg h0, if_neg hov]
      · refine hpass ?_ fun h => absurd h ha
        rw [fallback, if_neg ha]

/-- With one more item, the longest part of a pattern that has not been met is the next. -/
theorem Longest.next {p t : List α} {k : Nat} (h : Longest p t k) (hk : k < p.length) (a : α) :
    Longest p (t ++ [a]) (next p k a) := by
  -- a part that ends the longer text is one longer than a part that ended the text
  have hcand : ∀ j ≤ p.length, p.take j <:+ t ++ [a] → j ≠ 0 →
      ∃ i, j = i + 1 ∧ p[i]? = some a ∧ p.take i <:+ t ∧ i ≤ k := by
    intro j hj hsuf hj0
    obtain ⟨i, rfl⟩ := Nat.exists_eq_succ_of_ne_zero hj0
    obtain ⟨ha, hends⟩ := (take_succ_suffix_iff t a (by omega)).1 hsuf
    exact ⟨i, rfl, ha, hends, h.max i (by omega) hends⟩
  rw [PrefixMatch.next]
  -- where the next member fits the match is one longer
  by_cases ha : p[k]? = some a
  · rw [if_pos ha]
    refine ⟨hk, (take_succ_suffix_iff t a hk).2 ⟨ha, h.ends⟩, ?_⟩
    intro j hj hsuf
    by_cases hj0 : j = 0
    · omega
    · obtain ⟨i, rfl, -, -, hik⟩ := hcand j hj hsuf hj0
      omega
  · rw [if_neg ha]
    have hzero : fallback p a k k = if k = 0 then 0 else fallback p a k k := by
      split_ifs with hk0
      · rw [hk0]
        rfl
      · rfl
    rw [← hzero]
    -- otherwise the longest shorter match is taken up
    obtain ⟨hshape, hmax⟩ := fallback_spec p a h.le k (Nat.le_refl k)
    refine ⟨?_, ?_, ?_⟩
    · rcases hshape with h0 | ⟨i, hi, heq, -⟩ <;> omega
    · rcases hshape with h0 | ⟨i, hi, heq, hia, hsuf⟩
      · rw [h0]
        exact List.nil_suffix
      · rw [heq]
        exact (take_succ_suffix_iff t a (by omega)).2 ⟨hia, hsuf.trans h.ends⟩
    · intro j hj hsuf
      by_cases hj0 : j = 0
      · omega
      · obtain ⟨i, rfl, hia, hends, hik⟩ := hcand j hj hsuf hj0
        have hlt : i < k := Nat.lt_of_le_of_ne hik fun heq => ha (heq ▸ hia)
        refine hmax i hlt hia (List.suffix_of_suffix_length_le hends h.ends ?_)
        rw [List.length_take, List.length_take]
        omega

end

/-! ### The first match -/

/-- There is one first match. -/
theorem FirstMatch.unique {ps : List (List α)} {t : List α} {n i m j : Nat}
    (h : FirstMatch ps t n i) (h' : FirstMatch ps t m j) : n = m ∧ i = j := by
  obtain ⟨p, hp, hpt⟩ := h.ends
  obtain ⟨q, hq, hqt⟩ := h'.ends
  rcases Nat.le_total n m with hnm | hmn
  · obtain ⟨heq, hji⟩ := h'.first n hnm i p hp hpt
    obtain ⟨-, hij⟩ := h.first m (Nat.le_of_eq heq.symm) j q hq hqt
    exact ⟨heq, Nat.le_antisymm hij hji⟩
  · obtain ⟨heq, hij⟩ := h.first m hmn j q hq hqt
    obtain ⟨-, hji⟩ := h'.first n (Nat.le_of_eq heq.symm) i p hp hpt
    exact ⟨heq.symm, Nat.le_antisymm hij hji⟩

end PrefixMatch
