import Mathlib

/-!
# Integers in Memory

A fixed number of bytes is an integer in two ways, as its first or its last byte is the least
significant. The library reads and writes bytes in the first way; the second is the first
one with the bytes reversed, so that code which converts between the two reverses them
(`swap`).

Swapping hides where the bytes read the same both ways, and only there.

## Main definitions

* `ofBytes`, `toBytes`: The integer that bytes are, and the bytes of an integer.
* `swap`: The integer with its bytes in the other order.

## Theorems

* `toBytes_ofBytes`, `ofBytes_toBytes`: The two undo each other.
* `toBytes_swap`: The bytes of a swapped integer.
-/

namespace ByteOrder

/-- The integer whose least significant byte comes first. -/
def ofBytes : List UInt8 → Nat
  | [] => 0
  | b :: bs => b.toNat + 256 * ofBytes bs

/-- So many bytes of an integer, the least significant first. -/
def toBytes : Nat → Nat → List UInt8
  | 0, _ => []
  | n + 1, x => UInt8.ofNat x :: toBytes n (x / 256)

/-- The integer of `n` bytes with its bytes in the other order. -/
def swap (n x : Nat) : Nat := ofBytes (toBytes n x).reverse

@[simp]
theorem length_toBytes (n x : Nat) : (toBytes n x).length = n := by
  induction n generalizing x with
  | zero => rfl
  | succ n ih => rw [toBytes, List.length_cons, ih]

theorem ofBytes_lt (bs : List UInt8) : ofBytes bs < 256 ^ bs.length := by
  induction bs with
  | nil => exact Nat.one_pos
  | cons b bs ih =>
      have hb : b.toNat < 256 := b.toNat_lt
      rw [ofBytes, List.length_cons, Nat.pow_succ]
      omega

/-- Bytes are read back from the integer they are. -/
theorem toBytes_ofBytes (bs : List UInt8) : toBytes bs.length (ofBytes bs) = bs := by
  induction bs with
  | nil => rfl
  | cons b bs ih =>
      have hb : b.toNat < 256 := b.toNat_lt
      have hdiv : (b.toNat + 256 * ofBytes bs) / 256 = ofBytes bs := by omega
      have hlow : UInt8.ofNat (b.toNat + 256 * ofBytes bs) = b := by
        apply UInt8.toNat_inj.1
        rw [UInt8.toNat_ofNat']
        omega
      rw [List.length_cons, toBytes, ofBytes, hdiv, hlow, ih]

/-- An integer is the one its bytes are, if it fits them. -/
theorem ofBytes_toBytes (n x : Nat) (h : x < 256 ^ n) : ofBytes (toBytes n x) = x := by
  induction n generalizing x with
  | zero => exact (Nat.lt_one_iff.1 h).symm
  | succ n ih =>
      have hdiv : x / 256 < 256 ^ n := by
        rw [Nat.pow_succ] at h
        omega
      rw [toBytes, ofBytes, ih (x / 256) hdiv, UInt8.toNat_ofNat']
      omega

/-- The bytes of a swapped integer are those of the integer in the other order. -/
@[simp]
theorem toBytes_swap (n x : Nat) : toBytes n (swap n x) = (toBytes n x).reverse := by
  have h := toBytes_ofBytes (toBytes n x).reverse
  rw [List.length_reverse, length_toBytes] at h
  exact h

theorem swap_lt (n x : Nat) : swap n x < 256 ^ n := by
  have h := ofBytes_lt (toBytes n x).reverse
  rw [List.length_reverse, length_toBytes] at h
  exact h

end ByteOrder
