import Mathlib

/-!
# Cyclic Redundancy Checks

The check of a message, most significant bit first, is computed by a register that the bits
are fed to one at a time. It is the remainder that the message leaves, as a polynomial over
the field of two elements, on division by the polynomial of the check (`toPoly_crc_eq_mod`).

Code that works on bytes puts a whole byte at the top of the register and then shifts as often
as a byte has bits (`feedByte`). Code without registers of a fixed width shifts a number that
is never cut off (`natShift`), of which only the low bits matter.

## Main definitions

* `feed`, `crc`: The register of a check, and the check of a message.
* `bitsOf`, `crcBytes`: The bits of a byte, and the check of bytes.
* `feedByte`: A byte at once.
* `natShift`: The shift of a register that is never cut off.
* `toPoly`, `messagePoly`: Registers and messages as polynomials.

## Theorems

* `feedByte_eq`: A byte at once, and bit by bit.
* `ofNat_natShift`: The low bits of a register that is never cut off.
* `toPoly_feed`: One bit, as a congruence.
* `toPoly_crc_eq_mod`: The check is a remainder.
-/

namespace Crc

variable {w : Nat}

/-- The register moves up by one, and what falls out is taken off again. -/
def shift (poly r : BitVec w) : BitVec w :=
  if r.msb then (r <<< 1) ^^^ poly else r <<< 1

/-- The register after one more bit of the message. -/
def feed (poly r : BitVec w) (b : Bool) : BitVec w :=
  if r.msb ^^ b then (r <<< 1) ^^^ poly else r <<< 1

/-- The check of a message, from a value that the register starts with. -/
def crc (poly start : BitVec w) (message : List Bool) : BitVec w :=
  message.foldl (feed poly) start

/-- The bits of a byte, the most significant first. -/
def bitsOf (value : UInt8) : List Bool :=
  (List.range 8).map fun i => value.toNat.testBit (7 - i)

/-- The check of bytes. -/
def crcBytes (poly start : BitVec w) (bytes : List UInt8) : BitVec w :=
  crc poly start (bytes.flatMap bitsOf)

/-- A byte is put at the top of the register, which is then shifted eight times. -/
def feedByte (poly r : BitVec w) (value : UInt8) : BitVec w :=
  (shift poly)^[8] (r ^^^ BitVec.ofNat w (value.toNat <<< (w - 8)))

/-- The shift of a register that is never cut off. -/
def natShift (w poly r : Nat) : Nat :=
  if r.testBit (w - 1) then (r <<< 1) ^^^ poly else r <<< 1

/-! ### Bytes -/

theorem shift_xor_top (poly r t : BitVec w) :
    shift poly (r ^^^ t) = feed poly r t.msb ^^^ (t <<< 1) := by
  unfold shift feed
  rw [BitVec.msb_xor, BitVec.shiftLeft_xor_distrib]
  split_ifs
  · rw [BitVec.xor_assoc, BitVec.xor_comm (t <<< 1), ← BitVec.xor_assoc]
  · rfl

/-- Bits that stand at the top of the register are fed to it as they reach the end. -/
theorem iterate_shift (poly r t : BitVec w) (message : List Bool) (hlen : message.length ≤ w)
    (ht : ∀ i, t.getMsbD i = message.getD i false) :
    (shift poly)^[message.length] (r ^^^ t) = crc poly r message := by
  -- the bits that are still to come stand on top of the register
  induction message generalizing r t with
  | nil =>
      have hzero : t = 0#w := BitVec.eq_of_getMsbD_eq fun i _ => by
        rw [ht i, BitVec.getMsbD_zero, List.getD_nil]
      rw [hzero, BitVec.xor_zero]
      rfl
  | cons b message ih =>
      have hmsb : t.msb = b := by
        rw [BitVec.msb_eq_getMsbD_zero, ht 0]
        rfl
      rw [List.length_cons, Function.iterate_succ_apply, shift_xor_top, hmsb]
      refine ih (feed poly r b) (t <<< 1) (Nat.le_of_succ_le hlen) fun i => ?_
      rw [BitVec.getMsbD_shiftLeft, ht (i + 1)]
      rfl

theorem feedByte_eq (h : 8 ≤ w) (poly r : BitVec w) (value : UInt8) :
    feedByte poly r value = crc poly r (bitsOf value) := by
  have hlen : (bitsOf value).length = 8 := by
    rw [bitsOf, List.length_map, List.length_range]
  -- the byte's bits stand in the register's top eight places
  rw [← iterate_shift poly r (BitVec.ofNat w (value.toNat <<< (w - 8))) (bitsOf value)
    (hlen.trans_le h), hlen]
  · rfl
  · intro i
    rw [BitVec.getMsbD, BitVec.getLsbD_ofNat, Nat.testBit_shiftLeft]
    by_cases hi : i < 8
    · have hpos : w - 1 - i - (w - 8) = 7 - i := by omega
      have hge : w - 8 ≤ w - 1 - i := by omega
      have hlt : w - 1 - i < w := by omega
      rw [bitsOf, List.getD_eq_getElem _ _ (by simpa using hi), List.getElem_map,
        List.getElem_range, hpos]
      simp [hge, hlt, Nat.lt_of_lt_of_le hi h]
    · rw [List.getD_eq_default _ _ (by rw [hlen]; exact Nat.le_of_not_lt hi)]
      by_cases hge : w - 8 ≤ w - 1 - i
      · have hw : ¬i < w := by omega
        simp [hw]
      · simp [hge]

/-- Bytes at once, and bit by bit. -/
theorem foldl_feedByte (h : 8 ≤ w) (poly start : BitVec w) (bytes : List UInt8) :
    bytes.foldl (feedByte poly) start = crcBytes poly start bytes := by
  unfold crcBytes
  induction bytes generalizing start with
  | nil => rfl
  | cons value bytes ih =>
      rw [List.foldl_cons, ih, feedByte_eq h, List.flatMap_cons, crc, crc, crc,
        List.foldl_append]

/-! ### A register that is never cut off -/

theorem ofNat_natShift (h : 0 < w) (poly r : Nat) :
    BitVec.ofNat w (natShift w poly r) = shift (BitVec.ofNat w poly) (BitVec.ofNat w r) := by
  have hmsb : (BitVec.ofNat w r).msb = r.testBit (w - 1) := by
    rw [BitVec.msb_eq_getLsbD_last, BitVec.getLsbD_ofNat]
    simp [Nat.sub_lt h Nat.one_pos]
  have hshift : BitVec.ofNat w (r <<< 1) = BitVec.ofNat w r <<< 1 := by
    apply BitVec.eq_of_toNat_eq
    simp [BitVec.toNat_shiftLeft, Nat.shiftLeft_eq, Nat.mod_mul_mod]
  unfold natShift shift
  rw [hmsb]
  split_ifs
  · rw [BitVec.ofNat_xor, hshift]
  · exact hshift

theorem ofNat_iterate_natShift (h : 0 < w) (poly r n : Nat) :
    BitVec.ofNat w ((natShift w poly)^[n] r) =
      (shift (BitVec.ofNat w poly))^[n] (BitVec.ofNat w r) := by
  induction n generalizing r with
  | zero => rfl
  | succ n ih =>
      rw [Function.iterate_succ_apply, Function.iterate_succ_apply, ih, ofNat_natShift h]

/-! ### Remainders -/

open Polynomial

noncomputable section

/-- A bit as an element of the field. -/
def bit (b : Bool) : ZMod 2 := if b then 1 else 0

/-- A register as a polynomial. -/
def toPoly (r : BitVec w) : (ZMod 2)[X] :=
  ∑ i ∈ Finset.range w, C (bit (r.getLsbD i)) * X ^ i

/-- A message as a polynomial, its first bit the leading coefficient. -/
def messagePoly : List Bool → (ZMod 2)[X]
  | [] => 0
  | b :: message => C (bit b) * X ^ message.length + messagePoly message

/-- The polynomial of the check: the register has all but its leading coefficient. -/
def generator (poly : BitVec w) : (ZMod 2)[X] := X ^ w + toPoly poly

theorem bit_xor (a b : Bool) : bit (a ^^ b) = bit a + bit b := by
  cases a <;> cases b <;> rfl

theorem coeff_toPoly (r : BitVec w) (i : Nat) : (toPoly r).coeff i = bit (r.getLsbD i) := by
  rw [toPoly, finsetSum_coeff]
  simp only [coeff_C_mul, coeff_X_pow, mul_ite, mul_one, mul_zero, Finset.sum_ite_eq,
    Finset.mem_range]
  split_ifs with hi
  · rfl
  · rw [BitVec.getLsbD_of_ge r i (Nat.le_of_not_lt hi)]
    rfl

theorem toPoly_xor (r t : BitVec w) : toPoly (r ^^^ t) = toPoly r + toPoly t := by
  ext i
  rw [coeff_add, coeff_toPoly, coeff_toPoly, coeff_toPoly, BitVec.getLsbD_xor, bit_xor]

/-- Moving a register up is multiplying by `X`, up to the bit that falls out. -/
theorem X_mul_toPoly (h : 0 < w) (r : BitVec w) :
    X * toPoly r = toPoly (r <<< 1) + C (bit r.msb) * X ^ w := by
  ext i
  rw [coeff_add, coeff_C_mul, coeff_X_pow, coeff_toPoly, BitVec.getLsbD_shiftLeft]
  -- the coefficients are compared one by one; the top one is carried out
  cases i with
  | zero =>
      have hw : ¬(0 = w) := Nat.ne_of_lt h
      simp [hw, bit]
  | succ i =>
      rw [coeff_X_mul, coeff_toPoly, BitVec.msb_eq_getLsbD_last]
      by_cases hlt : i + 1 < w
      · have hw : ¬(i + 1 = w) := Nat.ne_of_lt hlt
        simp [hlt, hw]
      · by_cases hw : i + 1 = w
        · subst hw
          simp [bit]
        · have hge : w ≤ i := by omega
          rw [BitVec.getLsbD_of_ge r i hge]
          simp [hlt, hw, bit]

/-- One bit: the register is multiplied by `X`, the bit is added where it stands, and a
    multiple of the generator is taken off. -/
theorem toPoly_feed (h : 0 < w) (poly r : BitVec w) (b : Bool) :
    X * toPoly r + C (bit b) * X ^ w =
      toPoly (feed poly r b) + C (bit (r.msb ^^ b)) * generator poly := by
  rw [X_mul_toPoly h, add_assoc, ← add_mul, ← C_add, ← bit_xor]
  unfold feed generator
  -- in characteristic two the generator may be added twice
  split_ifs with hb
  · have htwice : toPoly poly + toPoly poly = 0 := CharTwo.add_self_eq_zero _
    rw [hb, toPoly_xor]
    simp only [bit, if_true, C_1, one_mul]
    calc toPoly (r <<< 1) + X ^ w
        = toPoly (r <<< 1) + X ^ w + (toPoly poly + toPoly poly) := by rw [htwice, add_zero]
      _ = toPoly (r <<< 1) + toPoly poly + (X ^ w + toPoly poly) := by ring
  · rw [Bool.not_eq_true] at hb
    rw [hb]
    simp [bit]

/-- The check differs from the message, moved up by the width of the register, by a multiple
    of the generator. -/
theorem toPoly_crc (h : 0 < w) (poly start : BitVec w) (message : List Bool) :
    ∃ q, toPoly start * X ^ message.length + messagePoly message * X ^ w =
      toPoly (crc poly start message) + q * generator poly := by
  -- induction on the bits, whose quotients add up
  induction message generalizing start with
  | nil => exact ⟨0, by simp [messagePoly, crc]⟩
  | cons b message ih =>
      rcases ih (feed poly start b) with ⟨q, hq⟩
      refine ⟨q + X ^ message.length * C (bit (start.msb ^^ b)), ?_⟩
      have hfeed := toPoly_feed h poly start b
      calc toPoly start * X ^ (b :: message).length + messagePoly (b :: message) * X ^ w
          = (X * toPoly start + C (bit b) * X ^ w) * X ^ message.length +
              messagePoly message * X ^ w := by
            rw [messagePoly, List.length_cons, pow_succ]
            ring
        _ = toPoly (feed poly start b) * X ^ message.length + messagePoly message * X ^ w +
              X ^ message.length * C (bit (start.msb ^^ b)) * generator poly := by
            rw [hfeed]
            ring
        _ = toPoly (crc poly start (b :: message)) +
              (q + X ^ message.length * C (bit (start.msb ^^ b))) * generator poly := by
            rw [hq, crc, crc, List.foldl_cons]
            ring

theorem degree_toPoly_lt (r : BitVec w) : (toPoly r).degree < w := by
  rw [degree_lt_iff_coeff_zero]
  intro i hi
  rw [coeff_toPoly, BitVec.getLsbD_of_ge r i hi]
  rfl

theorem monic_generator (poly : BitVec w) : (generator poly).Monic :=
  monic_X_pow_add (degree_toPoly_lt poly)

/-- The check is the remainder of the message, moved up by the width of the register, with the
    start value added to its first bits. -/
theorem toPoly_crc_eq_mod (h : 0 < w) (poly start : BitVec w) (message : List Bool) :
    (toPoly start * X ^ message.length + messagePoly message * X ^ w) %ₘ generator poly =
      toPoly (crc poly start message) := by
  rcases toPoly_crc h poly start message with ⟨q, hq⟩
  have hdegree : (generator poly).degree = w := by
    have hlt : (toPoly poly).degree < (X ^ w : (ZMod 2)[X]).degree := by
      rw [degree_X_pow]
      exact degree_toPoly_lt poly
    rw [generator, degree_add_eq_left_of_degree_lt hlt, degree_X_pow]
  refine (div_modByMonic_unique q _ (monic_generator poly) ⟨?_, ?_⟩).2
  · rw [hq, mul_comm]
  · rw [hdegree]
    exact degree_toPoly_lt _

end

end Crc
