import Mathlib.Data.List.Basic
import Mathlib.Data.List.Nodup

/-!
# Lists with Keys

A map kept as a list of keys with their values, where a key that is put anew moves to the
front or to the back. Nothing here is specific to one system.

## Main definitions

* `without`: The list without a key.
* `put`: The list with a value put for a key.
* `lastValue`: The value that a sequence of puts gave a key last.

## Theorems

* `without_middle`: A key that occurs once is taken from its place.
* `middle_unique`: That place is the only one.
* `mem_put_iff`: What a list holds behind a put.
* `nodup_put`: Each key stays the only one.
* `Reflects.put`: A list that holds the last values does so behind a put.
-/

namespace KeyedList

variable {κ β : Type*} [DecidableEq κ]

/-- The list without a key. -/
def without (key : κ) (l : List (κ × β)) : List (κ × β) :=
  l.filter fun p => p.1 ≠ key

/-- The value is put for the key, at the front or at the back. -/
def put (first : Bool) (key : κ) (value : β) (l : List (κ × β)) : List (κ × β) :=
  if first then (key, value) :: without key l else without key l ++ [(key, value)]

theorem mem_without_iff (key : κ) (l : List (κ × β)) (p : κ × β) :
    p ∈ without key l ↔ p ∈ l ∧ p.1 ≠ key := by
  rw [without, List.mem_filter, decide_eq_true_iff]

theorem without_of_not_mem (key : κ) (l : List (κ × β)) (h : key ∉ l.map Prod.fst) :
    without key l = l := by
  refine List.filter_eq_self.2 fun p hp => decide_eq_true fun heq => h ?_
  exact heq ▸ List.mem_map_of_mem hp

/-- A key that occurs once is taken from its place. -/
theorem without_middle (key : κ) (value : β) (front back : List (κ × β))
    (h : ((front ++ (key, value) :: back).map Prod.fst).Nodup) :
    without key (front ++ (key, value) :: back) = front ++ back := by
  -- The key is neither in front of its place nor behind it.
  rw [List.map_append, List.map_cons, List.nodup_middle, List.nodup_cons, List.mem_append,
    not_or] at h
  rw [without, List.filter_append, List.filter_cons_of_neg (by simp)]
  exact congrArg₂ (· ++ ·) (without_of_not_mem key front h.1.1)
    (without_of_not_mem key back h.1.2)

omit [DecidableEq κ] in
/-- A key that occurs, with its place. -/
theorem exists_middle (key : κ) (l : List (κ × β)) (h : key ∈ l.map Prod.fst) :
    ∃ front value back, l = front ++ (key, value) :: back := by
  rcases List.mem_map.1 h with ⟨⟨k, value⟩, hmem, rfl⟩
  rcases List.append_of_mem hmem with ⟨front, back, rfl⟩
  exact ⟨front, value, back, rfl⟩

omit [DecidableEq κ] in
/-- A key that occurs once has one place. -/
theorem middle_unique (key : κ) (value value' : β) (front front' back back' : List (κ × β))
    (heq : front ++ (key, value) :: back = front' ++ (key, value') :: back')
    (h : ((front ++ (key, value) :: back).map Prod.fst).Nodup) :
    front = front' ∧ value = value' ∧ back = back' := by
  have hfront : key ∉ front.map Prod.fst := by
    rw [List.map_append, List.map_cons, List.nodup_middle, List.nodup_cons, List.mem_append,
      not_or] at h
    exact h.1.1
  have hfront' : key ∉ front'.map Prod.fst := by
    rw [heq, List.map_append, List.map_cons, List.nodup_middle, List.nodup_cons, List.mem_append,
      not_or] at h
    exact h.1.1
  induction front generalizing front' with
  | nil =>
      cases front' with
      | nil => exact ⟨rfl, (Prod.mk.inj (List.cons.inj heq).1).2, (List.cons.inj heq).2⟩
      | cons p front' =>
          -- The key would stand in front of its place.
          rw [List.map_cons, ← (List.cons.inj heq).1] at hfront'
          exact absurd List.mem_cons_self hfront'
  | cons q front ih =>
      cases front' with
      | nil =>
          rw [List.map_cons, (List.cons.inj heq).1] at hfront
          exact absurd List.mem_cons_self hfront
      | cons p front' =>
          -- Both begin with the same pair.
          obtain ⟨rfl, hrest⟩ := List.cons.inj heq
          rw [List.cons_append, List.map_cons, List.nodup_cons] at h
          rw [List.map_cons, List.mem_cons, not_or] at hfront hfront'
          obtain ⟨rfl, hboth⟩ := ih front' hrest h.2 hfront.2 hfront'.2
          exact ⟨rfl, hboth⟩

theorem mem_put_iff (first : Bool) (key : κ) (value : β) (l : List (κ × β)) (p : κ × β) :
    p ∈ put first key value l ↔ p = (key, value) ∨ (p ∈ l ∧ p.1 ≠ key) := by
  unfold put
  cases first with
  | false =>
      rw [if_neg Bool.false_ne_true, List.mem_append, List.mem_singleton, mem_without_iff]
      exact or_comm
  | true => rw [if_pos rfl, List.mem_cons, mem_without_iff]

theorem nodup_without (key : κ) (l : List (κ × β)) (h : (l.map Prod.fst).Nodup) :
    ((without key l).map Prod.fst).Nodup :=
  h.sublist (List.filter_sublist.map Prod.fst)

theorem key_not_mem_without (key : κ) (l : List (κ × β)) :
    key ∉ (without key l).map Prod.fst := by
  intro h
  rcases List.mem_map.1 h with ⟨p, hp, heq⟩
  exact ((mem_without_iff key l p).1 hp).2 heq

/-- Each key stays the only one. -/
theorem nodup_put (first : Bool) (key : κ) (value : β) (l : List (κ × β))
    (h : (l.map Prod.fst).Nodup) : ((put first key value l).map Prod.fst).Nodup := by
  have hrest := nodup_without key l h
  have hnew := key_not_mem_without key l
  unfold put
  cases first with
  | false =>
      rw [if_neg Bool.false_ne_true, List.map_append, List.map_singleton, List.nodup_append]
      refine ⟨hrest, List.nodup_singleton key, ?_⟩
      -- What was there for the key has gone.
      rintro k hk k' hk' rfl
      rw [List.mem_singleton.1 hk'] at hk
      exact hnew hk
  | true =>
      rw [if_pos rfl, List.map_cons, List.nodup_cons]
      exact ⟨hnew, hrest⟩

/-- The value that was put last for a key; the puts stand with the latest one at the end. -/
def lastValue (key : κ) (puts : List (κ × β)) : Option β :=
  (puts.reverse.find? fun p => p.1 = key).map Prod.snd

theorem lastValue_append (key : κ) (puts : List (κ × β)) (p : κ × β) :
    lastValue key (puts ++ [p]) = if p.1 = key then some p.2 else lastValue key puts := by
  unfold lastValue
  rw [List.reverse_append, List.reverse_singleton, List.singleton_append, List.find?_cons]
  by_cases h : p.1 = key
  · rw [if_pos h, decide_eq_true h]
    rfl
  · rw [if_neg h, decide_eq_false h]

/-- The list holds each key once, with the value that was put for it last. -/
structure Reflects (puts l : List (κ × β)) : Prop where
  nodup : (l.map Prod.fst).Nodup
  mem_iff : ∀ key value, (key, value) ∈ l ↔ lastValue key puts = some value

theorem reflects_nil : Reflects ([] : List (κ × β)) [] :=
  ⟨List.nodup_nil, fun _ _ => iff_of_false List.not_mem_nil fun h => nomatch h⟩

/-- A list that holds the last values does so behind a put. -/
theorem Reflects.put {puts l : List (κ × β)} (h : Reflects puts l) (first : Bool) (key : κ)
    (value : β) : Reflects (puts ++ [(key, value)]) (put first key value l) := by
  refine ⟨nodup_put first key value l h.nodup, fun k v => ?_⟩
  rw [mem_put_iff, lastValue_append]
  by_cases hk : key = k
  · -- The key that is put: its value is the new one, and nothing else is left for it.
    subst hk
    rw [if_pos rfl, Option.some_inj, Prod.mk.injEq]
    constructor
    · rintro (⟨-, rfl⟩ | ⟨-, hne⟩)
      · rfl
      · exact absurd rfl hne
    · rintro rfl
      exact Or.inl ⟨rfl, rfl⟩
  · -- Another key: its pair stays.
    rw [if_neg hk, ← h.mem_iff]
    constructor
    · rintro (heq | ⟨hmem, -⟩)
      · exact absurd (Prod.mk.inj heq).1.symm hk
      · exact hmem
    · exact fun hmem => Or.inr ⟨hmem, fun heq => hk heq.symm⟩

end KeyedList
