import Mathlib.Data.List.Basic
import Mathlib.Data.Nat.ModEq
import Mathlib.Logic.Function.Basic
import Mathlib.Tactic.SplitIfs

/-!
# Bounded Queues

A queue of at most `cap` items that turns away what does not fit, and the circular array
that such a queue is kept in. The items of the queue are a `window` of the array: `len`
places from `start` on, behind the last place the first one again. A write at the end of
the window adds an item, unless the window is the whole array, and a window that begins
one place later has lost the first.

Nothing here is specific to one buffer.

## Main definitions

* `offer`, `offerAll`: A queue takes what it has room for.
* `window`: The items of a part of a circular array.

## Theorems

* `offerAll_eq_take`: Of many items a queue takes the first ones.
* `window_push`: A write behind the window.
* `window_succ`: The first item of a window.
-/

namespace BoundedQueue

variable {α : Type*}

/-- One more item at the end of a queue, if there is room. -/
def offer (cap : Nat) (q : List α) (x : α) : List α :=
  if q.length < cap then q ++ [x] else q

/-- Elements offered one after the other. -/
def offerAll (cap : Nat) (q : List α) (xs : List α) : List α :=
  xs.foldl (offer cap) q

@[simp] theorem offerAll_nil (cap : Nat) (q : List α) : offerAll cap q [] = q := rfl

theorem offerAll_cons (cap : Nat) (q : List α) (x : α) (xs : List α) :
    offerAll cap q (x :: xs) = offerAll cap (offer cap q x) xs := rfl

/-- A full queue takes nothing. -/
theorem offerAll_full (cap : Nat) (q xs : List α) (h : cap ≤ q.length) :
    offerAll cap q xs = q := by
  induction xs with
  | nil => rfl
  | cons x xs ih => rw [offerAll_cons, offer, if_neg (Nat.not_lt_of_le h), ih]

/-- Of many items a queue takes as many as it has room for, the first ones. -/
theorem offerAll_eq_take (cap : Nat) (q xs : List α) (h : q.length ≤ cap) :
    offerAll cap q xs = (q ++ xs).take cap := by
  induction xs generalizing q with
  | nil => rw [offerAll_nil, List.append_nil, List.take_of_length_le h]
  | cons x xs ih =>
      by_cases hroom : q.length < cap
      · have hlen : (q ++ [x]).length ≤ cap := by
          rw [List.length_append, List.length_singleton]
          omega
        rw [offerAll_cons, offer, if_pos hroom, ih (q ++ [x]) hlen, List.append_assoc,
          List.singleton_append]
      -- A full queue is its own first `cap` items, whatever comes behind.
      · have hfull : q.length = cap := by omega
        rw [offerAll_full cap q _ (by omega), ← hfull, List.take_left]

/-! ### Circular arrays -/

section Circular

variable {N : Nat} [NeZero N]

/-- The items of `len` places of a circular array, from `start` on. -/
def window (f : Fin N → α) (start : Fin N) (len : Nat) : List α :=
  (List.range len).map fun k => f (Fin.ofNat N (start + k))

@[simp] theorem window_zero (f : Fin N → α) (start : Fin N) : window f start 0 = [] := rfl

@[simp] theorem length_window (f : Fin N → α) (start : Fin N) (len : Nat) :
    (window f start len).length = len := by
  rw [window, List.length_map, List.length_range]

theorem ofNat_val (i : Fin N) : Fin.ofNat N i = i :=
  Fin.ext (Nat.mod_eq_of_lt i.isLt)

/-- A window is its first item and the window one place on. -/
theorem window_succ (f : Fin N → α) (start : Fin N) (len : Nat) :
    window f start (len + 1) = f start :: window f (Fin.ofNat N (start + 1)) len := by
  -- Wrapping round before a step or behind it comes to the same place.
  have hplace : ∀ k, Fin.ofNat N (start + (k + 1)) = Fin.ofNat N (Fin.ofNat N (start + 1) + k) := by
    intro k
    refine Fin.ext ?_
    simp only [Fin.val_ofNat, Nat.mod_add_mod]
    congr 1
    omega
  rw [window, List.range_succ_eq_map, List.map_cons, List.map_map, Nat.add_zero, ofNat_val]
  refine congrArg (f start :: ·) (List.map_congr_left fun k _ => ?_)
  exact congrArg f (hplace k)

/-- Two places of a window that is no longer than the array are different. -/
theorem place_ne (start : Fin N) {j k : Nat} (hjk : j < k) (hk : k < N) :
    Fin.ofNat N (start + j) ≠ Fin.ofNat N (start + k) := by
  intro h
  have hmod : ((start : Nat) + j) % N = (start + k) % N := congrArg Fin.val h
  -- Offsets below `N` are their own remainders, so equal places have equal offsets.
  have hcancel : j % N = k % N := Nat.ModEq.add_left_cancel' _ hmod
  rw [Nat.mod_eq_of_lt (Nat.lt_trans hjk hk), Nat.mod_eq_of_lt hk] at hcancel
  omega

/-- A write behind the window lengthens it, if a place is left. -/
theorem window_push (f : Fin N → α) (start : Fin N) (len : Nat) (x : α) (h : len < N) :
    window (Function.update f (Fin.ofNat N (start + len)) x) start (len + 1) =
      window f start len ++ [x] := by
  rw [window, List.range_succ, List.map_append, List.map_singleton, Function.update_self]
  refine congrArg (· ++ [x]) (List.map_congr_left fun k hk => ?_)
  -- The place written is none of the window's.
  exact Function.update_of_ne (place_ne start (List.mem_range.1 hk) h) _ _

end Circular

end BoundedQueue
