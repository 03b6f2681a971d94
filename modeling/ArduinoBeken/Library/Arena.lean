import Mathlib.Data.List.Basic
import Mathlib.Data.List.Count
import Mathlib.Data.List.Nodup
import Mathlib.Data.List.Range

/-!
# Resources That Are Given Back Once

Resources of one kind, numbered as they are made, with the record of those that were given
back. What a system holds accounts for the rest: together with what was given back it is all
that was made, each resource once (`Held`). While that is so nothing is given back twice, and
a system that holds nothing has given each resource back exactly once.

Nothing here is specific to one kind of resource.

## Main definitions

* `Arena`: What was made, and what was given back.
* `Live`: A resource that is out.
* `Held`: What a system holds is what is out.
* `Settled`: Each resource was given back exactly once.

## Theorems

* `Held.alloc`, `Held.free`, `Held.give`: Making and giving back.
* `Held.live_iff`: What is out is what is held.
* `Held.settled`: With nothing held, each was given back once.
-/

/-- How many resources were made, and which of them were given back. -/
structure Arena where
  made : Nat := 0
  released : List Nat := []
deriving DecidableEq, Repr

namespace Arena

/-- One more is made. Its number is `made`. -/
def alloc (a : Arena) : Arena := { a with made := a.made + 1 }

/-- A cell is given back. -/
def free (a : Arena) (k : Nat) : Arena := { a with released := a.released ++ [k] }

/-- Giving back what there is, if anything. -/
def give (a : Arena) : Option Nat → Arena
  | none => a
  | some k => a.free k

/-- The resource was made and not given back. -/
def Live (a : Arena) (k : Nat) : Prop := k < a.made ∧ k ∉ a.released

instance (a : Arena) (k : Nat) : Decidable (a.Live k) :=
  inferInstanceAs (Decidable (_ ∧ _))

/-- What is held and what was given back is all that was made, each once. -/
def Held (a : Arena) (held : List Nat) : Prop :=
  (held ++ a.released).Perm (List.range a.made)

/-- Each resource was given back exactly once, and nothing else was. -/
def Settled (a : Arena) : Prop :=
  ∀ k, a.released.count k = if k < a.made then 1 else 0

theorem held_new : Held {} [] := List.Perm.refl _

theorem Held.alloc {a : Arena} {held : List Nat} (h : a.Held held) :
    a.alloc.Held (a.made :: held) := by
  have hrange : List.range (a.made + 1) = List.range a.made ++ [a.made] := List.range_succ
  unfold Held Arena.alloc
  rw [hrange]
  exact (List.Perm.cons a.made h).trans (List.perm_append_singleton a.made _).symm

theorem Held.free {a : Arena} {k : Nat} {held : List Nat} (h : a.Held (k :: held)) :
    (a.free k).Held held := by
  unfold Held Arena.free
  rw [← List.append_assoc]
  exact (List.perm_append_singleton k _).trans h

theorem Held.give {a : Arena} {k : Option Nat} {held : List Nat}
    (h : a.Held (k.toList ++ held)) : (a.give k).Held held := by
  cases k with
  | none => exact h
  | some k => exact Held.free h

theorem Held.perm {a : Arena} {held held' : List Nat} (h : a.Held held)
    (hp : held'.Perm held) : a.Held held' :=
  (hp.append_right a.released).trans h

/-- What is out is what is held. -/
theorem Held.live_iff {a : Arena} {held : List Nat} (h : a.Held held) (k : Nat) :
    a.Live k ↔ k ∈ held := by
  have hmem : k ∈ held ++ a.released ↔ k < a.made := by
    rw [h.mem_iff, List.mem_range]
  have hnodup : (held ++ a.released).Nodup := h.nodup_iff.2 List.nodup_range
  have hdisj := List.disjoint_of_nodup_append hnodup
  rw [List.mem_append] at hmem
  constructor
  · rintro ⟨hmade, hnot⟩
    exact (hmem.2 hmade).resolve_right hnot
  · intro hheld
    exact ⟨hmem.1 (Or.inl hheld), fun hrel => hdisj hheld hrel⟩

/-- With nothing held, each resource was given back exactly once, and nothing else was. -/
theorem Held.settled {a : Arena} (h : a.Held []) : a.Settled := by
  intro k
  have hperm : a.released.Perm (List.range a.made) := h
  rw [hperm.count_eq k]
  split_ifs with hk
  · exact List.count_eq_one_of_mem List.nodup_range (List.mem_range.2 hk)
  · exact List.count_eq_zero_of_not_mem fun hmem => hk (List.mem_range.1 hmem)

end Arena
