import Mathlib.Data.List.Basic
import Mathlib.Data.List.Infix
import Mathlib.Tactic.SplitIfs

/-!
# Cutting a Word out of a List

Every occurrence of a word is cut out of a list, from the right: where the word begins in what
is left of the rest of the list, it goes. This also cuts out what only becomes an occurrence
once another one is gone. Nothing here is specific to one system.

## Main definitions

* `step`: One more element in front of a rest from which the word was cut.
* `cut`: The list without the word.
* `Unbordered`: The word does not overlap with itself.

## Theorems

* `foldr_step_eq_append`: Where the word does not begin, nothing is cut out.
* `foldr_step_last`: The last occurrence goes first.
* `mem_of_mem_cut`: What is left was there.
* `cut_append`: A word in front of a list is cut off.
-/

namespace Cutting

variable {α : Type*} [DecidableEq α]

/-- One more element in front of a rest from which the word was cut. -/
def step (word : List α) (a : α) (rest : List α) : List α :=
  if word.isPrefixOf (a :: rest) then (a :: rest).drop word.length else a :: rest

/-- The list without the word. -/
def cut (word s : List α) : List α :=
  s.foldr (step word) []

/-- No end of the word is a beginning of it, but for the word. -/
def Unbordered (word : List α) : Prop :=
  ∀ s ∈ word.tails, s ≠ [] → s <+: word → s = word

instance (word : List α) : Decidable (Unbordered word) :=
  inferInstanceAs (Decidable (∀ s ∈ word.tails, _))

theorem step_of_prefix (word : List α) (a : α) (rest : List α) (h : word <+: a :: rest) :
    step word a rest = (a :: rest).drop word.length :=
  if_pos (List.isPrefixOf_iff_prefix.2 h)

theorem step_of_not_prefix (word : List α) (a : α) (rest : List α) (h : ¬ word <+: a :: rest) :
    step word a rest = a :: rest :=
  if_neg fun hp => h (List.isPrefixOf_iff_prefix.1 hp)

/-- Where the word does not begin, nothing is cut out. -/
theorem foldr_step_eq_append (word u v : List α)
    (h : ∀ j < u.length, ¬ word <+: (u ++ v).drop j) : u.foldr (step word) v = u ++ v := by
  induction u with
  | nil => rfl
  | cons a u ih =>
      have hrest : u.foldr (step word) v = u ++ v :=
        ih fun j hj => h (j + 1) (Nat.succ_lt_succ hj)
      rw [List.foldr_cons, hrest, List.cons_append]
      exact step_of_not_prefix word a _ (h 0 (Nat.succ_pos _))

/-- The last occurrence goes first, and the cutting goes on in front of it. -/
theorem foldr_step_last (word u v : List α) (i : Nat) (hi : i < u.length)
    (hmatch : word <+: (u ++ v).drop i)
    (hlast : ∀ j, i < j → j < u.length → ¬ word <+: (u ++ v).drop j) :
    u.foldr (step word) v = (u.take i).foldr (step word) ((u ++ v).drop (i + word.length)) := by
  -- induction on the part in front, where only the last match is cut
  induction u generalizing i with
  | nil => exact absurd hi (Nat.not_lt_zero i)
  | cons a u ih =>
      cases i with
      | zero =>
          have hrest : u.foldr (step word) v = u ++ v := by
            refine foldr_step_eq_append word u v ?_
            intro j hj
            exact hlast (j + 1) (Nat.succ_pos j) (Nat.succ_lt_succ hj)
          have hhere : word <+: a :: (u ++ v) := hmatch
          rw [List.foldr_cons, hrest, step_of_prefix word a _ hhere, Nat.zero_add]
          rfl
      | succ i =>
          have hrest := ih i (Nat.lt_of_succ_lt_succ hi) hmatch
            fun j hij hj => hlast (j + 1) (Nat.succ_lt_succ hij) (Nat.succ_lt_succ hj)
          rw [List.foldr_cons, hrest, List.take_succ_cons, List.foldr_cons, List.cons_append,
            Nat.succ_add, List.drop_succ_cons]

theorem mem_of_mem_cut (word s : List α) (a : α) (h : a ∈ cut word s) : a ∈ s := by
  -- cutting only ever leaves members out
  induction s with
  | nil => exact h
  | cons b s ih =>
      have hrest : ∀ x ∈ b :: cut word s, x = a → a ∈ b :: s := by
        intro x hx hxa
        rcases List.mem_cons.1 hx with hxb | hxs
        · exact List.mem_cons.2 (Or.inl (hxa.symm.trans hxb))
        · exact List.mem_cons_of_mem b (ih (hxa ▸ hxs))
      change a ∈ step word b (cut word s) at h
      rw [step] at h
      split_ifs at h
      · exact hrest a (List.mem_of_mem_drop h) rfl
      · exact hrest a h rfl

/-- A word in front of a list is cut off. -/
theorem cut_append (word s : List α) (hword : Unbordered word) :
    cut word (word ++ s) = cut word s := by
  cases hcase : word with
  | nil => rfl
  | cons a rest =>
      rw [← hcase, cut, cut, List.foldr_append]
      have hpos : 0 < word.length := by
        rw [hcase, List.length_cons]
        omega
      rw [foldr_step_last word word _ 0 hpos (List.prefix_append word _), List.take_zero,
        List.foldr_nil, Nat.zero_add, List.drop_left]
      -- an occurrence that begins inside the word would overlap with it
      intro j hj hlt hpre
      rw [List.drop_append_of_le_length (Nat.le_of_lt hlt)] at hpre
      have hlen : (word.drop j).length < word.length := by
        rw [List.length_drop]
        omega
      have hend : word.drop j <+: word :=
        List.prefix_of_prefix_length_le (List.prefix_append _ _) hpre (Nat.le_of_lt hlen)
      have hne : word.drop j ≠ [] := by
        rw [Ne, List.drop_eq_nil_iff]
        omega
      have heq := hword _ ((List.mem_tails _ _).2 (List.drop_suffix j word)) hne hend
      rw [heq] at hlen
      exact absurd hlen (Nat.lt_irrefl _)

end Cutting
