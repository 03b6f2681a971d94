import ArduinoBeken.Core.Stream
import Mathlib.Data.Nat.Digits.Lemmas

/-!
# Printing Numbers

The number printers of the class `Print`, and that what they print reads back.

`printNumber` takes one digit off after the other and writes them from the end of its buffer.
For 64 bits there is a faster one, `printULLNumber`: it divides by the largest power of the base
that 16 bits have room for, and takes the digits of the remainder with arithmetic of 16 bits.
The plain one stands beside it as a comment, its reference. Neither leaves its buffer, and both
find the digits of the number in every base. As their characters are signed and the plain one
writes its buffer as a string, they print the same for sure only while digits have characters,
which are 36: `printNumber_eq`, `printULLNumber_eq`, `printULLNumber_reference`.

A reader at the other end of a stream finds the number again with `parseInt`, whatever it may
pass over comes before it, however its characters arrive, and whatever ignored characters have
been put between them: `parseInt_print`. From 2147483600 on, and for the smallest number, a
signed `long` overflows on the way, which is taken to wrap here, as the processor does.

## Main definitions

* `numberLoop`, `printNumber`, `print`: A number of 32 bits.
* `widen`, `chunkLoop`, `restLoop`, `printULLNumber`: A number of 64 bits.
* `digitsOf`, `numeral`: The digits of a number, and their characters.

## Theorems

* `printNumber_eq`, `printULLNumber_eq`: What is printed.
* `printULLNumber_reference`: The fast printer and its reference.
* `parseInt_print`: What is printed is read.
-/

namespace ArduinoBeken

namespace Core

namespace Print

open Arrivals
open ArduinoBeken.Core.Stream (LookaheadMode parseInt peekNextDigit numberValue accumulate
  inNumber isDigit toLong)

/-- `c < 10 ? c + '0' : c + 'A' - 10` of a digit that is stored as a `char`, which is signed
    here. -/
def digitChar (c : Nat) : UInt8 :=
  let c := Int.bmod c 256
  UInt8.ofInt (if c < 10 then c + 48 else c + 65 - 10)

/-- `write(str)` writes a string up to its terminator. -/
def writeStr (str : List UInt8) : List UInt8 :=
  str.takeWhile (· != 0)

/-- The base that is used: 10 in place of a base below 2. -/
def usedBase (base : UInt8) : Nat :=
  if base < 2 then 10 else base.toNat

/-- The loop of `printNumber`, with the room that is left in front of what is written. -/
def numberLoop (base : Nat) : Nat → Nat → List UInt8 → Option (List UInt8)
  | 0, _, _ => none
  | room + 1, n, str =>
    let c := n % base
    let n := n / base
    if n = 0 then some (digitChar c :: str) else numberLoop base room n (digitChar c :: str)

/-- `printNumber`, in its buffer of 33 characters with the terminator. -/
def printNumber (n : UInt32) (base : UInt8) : Option (List UInt8) :=
  (numberLoop (usedBase base) 32 n.toNat []).map writeStr

/-- `print(long, int)`. The negative of the smallest number wraps to itself. -/
def print (n : Int32) (base : Int) : Option (List UInt8) :=
  if base = 0 then some [UInt8.ofInt n.toInt]
  else if base = 10 then
    if n < 0 then (printNumber (-n).toUInt32 10).map (45 :: ·) else printNumber n.toUInt32 10
  else printNumber n.toUInt32 (UInt8.ofInt base)

/-- The power of the base and its exponent, from `th16` and `innerLoops` on. -/
def widen (base top : Nat) : Nat → Nat → Nat → Option (Nat × Nat)
  | 0, _, _ => none
  | fuel + 1, th16, innerLoops =>
    if th16 < top then widen base top fuel (th16 * base % 65536) (innerLoops + 1)
    else some (th16, innerLoops)

/-- The digits that the inner loop takes off a remainder, the last first. -/
def lowDigits (base : Nat) : Nat → Nat → List Nat
  | 0, _ => []
  | j + 1, r => (r - r / base * base) :: lowDigits base j (r / base)

/-- The part of 64 bits: the digits so far, and what is left of the number. -/
def chunkLoop (base th16 innerLoops : Nat) : Nat → Nat → List Nat → Option (List Nat × Nat)
  | 0, _, _ => none
  | fuel + 1, n64, buf =>
    if th16 < n64 then
      let q := n64 / th16
      let r := (n64 - q * th16) % 65536
      chunkLoop base th16 innerLoops fuel q (buf ++ lowDigits base innerLoops r)
    else some (buf, n64)

/-- The part of 16 bits. -/
def restLoop (base : Nat) : Nat → Nat → List Nat → Option (List Nat)
  | 0, _, _ => none
  | fuel + 1, n16, buf =>
    if 0 < n16 then restLoop base fuel (n16 / base) (buf ++ [n16 - n16 / base * base])
    else some buf

/-- `printULLNumber`. Its buffer takes 64 digits, which are only added to it, and written one by
    one at the end. -/
def printULLNumber (n64 : UInt64) (base : UInt8) : Option (List UInt8) :=
  if n64 = 0 then some [48]
  else do
    let base := usedBase base
    let (th16, innerLoops) ← widen base (65535 / base) 16 1 0
    let (buf, n) ← chunkLoop base th16 innerLoops 65 n64.toNat []
    let buf ← restLoop base 17 (n % 65536) buf
    if buf.length ≤ 64 then some (buf.reverse.map digitChar) else none

/-- The reference of `printULLNumber`, in its buffer of 65 characters with the terminator. -/
def referenceULLNumber (n : UInt64) (base : UInt8) : Option (List UInt8) :=
  (numberLoop (usedBase base) 64 n.toNat []).map writeStr

/-- The digits of a number, the first in front. -/
def digitsOf (base n : Nat) : List Nat :=
  if n = 0 then [0] else (Nat.digits base n).reverse

/-- The character of a digit: 0 to 9, and the capital letters behind them. -/
def numeralChar (d : Nat) : UInt8 :=
  UInt8.ofNat (if d < 10 then d + 48 else d + 55)

/-- How a number is written in a base of at most 36. -/
def numeral (base n : Nat) : List UInt8 :=
  (digitsOf base n).map numeralChar

/-! ### The plain printer -/

theorem two_le_usedBase (base : UInt8) : 2 ≤ usedBase base ∧ usedBase base < 256 := by
  rw [usedBase]
  split_ifs with h
  · decide
  · exact ⟨UInt8.le_iff_toNat_le.1 (UInt8.not_lt.1 h), base.toNat_lt⟩

/-- The last digit stands behind those of the rest. -/
theorem digitsOf_div {base n : Nat} (hbase : 2 ≤ base) (h : n / base ≠ 0) :
    digitsOf base n = digitsOf base (n / base) ++ [n % base] := by
  have hn : n ≠ 0 := fun h0 => h (by rw [h0, Nat.zero_div])
  rw [digitsOf, if_neg hn, digitsOf, if_neg h, Nat.digits_eq_cons_digits_div hbase hn,
    List.reverse_cons]

theorem digitsOf_digit {base n : Nat} (hbase : 2 ≤ base) (h : n / base = 0) :
    digitsOf base n = [n % base] := by
  have hlt : n < base := by
    rcases (Nat.div_eq_zero_iff).1 h with h0 | hlt
    · omega
    · exact hlt
  rw [digitsOf, Nat.mod_eq_of_lt hlt]
  split_ifs with h0
  · rw [h0]
  · rw [Nat.digits_of_lt base n h0 hlt]
    rfl

theorem digitsOf_lt {base n : Nat} (hbase : 2 ≤ base) : ∀ d ∈ digitsOf base n, d < base := by
  intro d hd
  rw [digitsOf] at hd
  split_ifs at hd
  · rw [List.mem_singleton.1 hd]
    omega
  · exact Nat.digits_lt_base hbase (List.mem_reverse.1 hd)

/-- The digits that have characters are written as these. -/
theorem digitChar_eq : ∀ d < 36, digitChar d = numeralChar d := by decide

theorem numeralChar_ne_zero : ∀ d < 36, numeralChar d ≠ 0 := by decide

/-- While the base is at most 36, what is written of the digits is the numeral, up to its
    end. -/
theorem map_digitChar_eq {base : Nat} (hbase : 2 ≤ base) (hsmall : base ≤ 36) (n : Nat) :
    (digitsOf base n).map digitChar = numeral base n ∧
      writeStr (numeral base n) = numeral base n := by
  have hlt : ∀ d ∈ digitsOf base n, d < 36 := fun d hd =>
    Nat.lt_of_lt_of_le (digitsOf_lt hbase d hd) hsmall
  refine ⟨List.map_congr_left fun d hd => digitChar_eq d (hlt d hd), ?_⟩
  rw [writeStr, List.takeWhile_eq_self_iff]
  intro c hc
  obtain ⟨d, hd, rfl⟩ := List.mem_map.1 hc
  exact bne_iff_ne.2 (numeralChar_ne_zero d (hlt d hd))

/-- With room for as many digits as the number has in base 2, the loop writes them all. -/
theorem numberLoop_eq {base : Nat} (hbase : 2 ≤ base) (room n : Nat) (str : List UInt8)
    (hn : n < 2 ^ (room + 1)) :
    numberLoop base (room + 1) n str = some ((digitsOf base n).map digitChar ++ str) := by
  induction room generalizing n str with
  | zero =>
      have h0 : n / base = 0 := Nat.div_eq_of_lt (by omega)
      rw [numberLoop, if_pos h0, digitsOf_digit hbase h0]
      rfl
  | succ room ih =>
      rw [numberLoop]
      by_cases h0 : n / base = 0
      · rw [if_pos h0, digitsOf_digit hbase h0]
        rfl
      · have hhalf : n / base ≤ n / 2 := Nat.div_le_div_left hbase (by decide)
        rw [if_neg h0, ih _ _ (by rw [Nat.pow_succ] at hn; omega), digitsOf_div hbase h0,
          List.map_append, List.append_assoc]
        rfl

/-- A base that has characters is used as one. -/
theorem usedBase_le {base : UInt8} (hbase : base ≤ 36) : usedBase base ≤ 36 := by
  rw [usedBase]
  split_ifs
  · decide
  · exact UInt8.le_iff_toNat_le.1 hbase

/-- `printNumber` prints the numeral. -/
theorem printNumber_eq (n : UInt32) (base : UInt8) (hbase : base ≤ 36) :
    printNumber n base = some (numeral (usedBase base) n.toNat) := by
  have hwritten := map_digitChar_eq (two_le_usedBase base).1 (usedBase_le hbase) n.toNat
  rw [printNumber, numberLoop_eq (two_le_usedBase base).1 31 n.toNat [] n.toNat_lt,
    List.append_nil, Option.map_some, hwritten.1, hwritten.2]

/-! ### The fast printer -/

/-- The loop finds a power of the base, at least the first, that 16 bits have room for. -/
theorem widen_spec {base : Nat} (hbase : 2 ≤ base) (fuel k : Nat) (hpow : base ^ k < 65536)
    (hfuel : 16 ≤ fuel + k) :
    ∃ j ≥ k, widen base (65535 / base) fuel (base ^ k) k = some (base ^ j, j) ∧
      base ^ j < 65536 ∧ 65535 / base ≤ base ^ j := by
  have hlow : 2 ^ k ≤ base ^ k := Nat.pow_le_pow_left hbase k
  -- the power grows with every turn, so sixteen turns reach the bound
  induction fuel generalizing k with
  | zero =>
      have : 2 ^ 16 ≤ 2 ^ k := Nat.pow_le_pow_right (by decide) (by omega)
      omega
  | succ fuel ih =>
      rw [widen]
      by_cases htop : base ^ k < 65535 / base
      · have hnext : base ^ (k + 1) < 65536 := by
          have := (Nat.lt_div_iff_mul_lt (by omega)).1 htop
          rw [Nat.pow_succ]
          omega
        obtain ⟨j, hj, heq, hlt, hle⟩ :=
          ih (k + 1) hnext (by omega) (Nat.pow_le_pow_left hbase (k + 1))
        refine ⟨j, by omega, ?_, hlt, hle⟩
        rw [if_pos htop, ← Nat.pow_succ, Nat.mod_eq_of_lt hnext]
        exact heq
      · exact ⟨k, Nat.le_refl k, by rw [if_neg htop], hpow, Nat.le_of_not_lt htop⟩

theorem sub_div_mul (n base : Nat) : n - n / base * base = n % base := by
  have := Nat.div_add_mod n base
  rw [Nat.mul_comm] at this
  omega

/-- The digits of a number are the low ones and those of the quotient. -/
theorem digits_low {base : Nat} (hbase : 2 ≤ base) (k n : Nat) (h : n / base ^ k ≠ 0) :
    Nat.digits base n = lowDigits base k (n % base ^ k) ++ Nat.digits base (n / base ^ k) := by
  induction k generalizing n with
  | zero => rw [Nat.pow_zero, Nat.div_one, lowDigits, List.nil_append]
  | succ k ih =>
      have hdiv : n / base ^ (k + 1) = n / base / base ^ k := by
        rw [Nat.pow_succ, Nat.mul_comm, Nat.div_div_eq_div_mul]
      have hmod : n % base ^ (k + 1) / base = n / base % base ^ k := by
        rw [Nat.pow_succ, Nat.mul_comm, Nat.mod_mul_right_div_self]
      have hlast : n % base ^ (k + 1) % base = n % base := by
        rw [Nat.pow_succ, Nat.mod_mul_left_mod]
      rw [hdiv] at h ⊢
      have hn : n ≠ 0 := fun h0 => h (by rw [h0, Nat.zero_div, Nat.zero_div])
      rw [lowDigits, sub_div_mul, hlast, hmod, List.cons_append, ← ih _ h,
        Nat.digits_eq_cons_digits_div hbase hn]

/-- The part of 64 bits takes the low digits off, and leaves a number of 16 bits, but not
    zero. -/
theorem chunkLoop_spec {base k : Nat} (hbase : 2 ≤ base) (hk : 1 ≤ k) (hpow : base ^ k < 65536)
    (fuel n : Nat) (buf : List Nat) (hn : n < 2 ^ fuel) (h0 : n ≠ 0) :
    ∃ buf' m, chunkLoop base (base ^ k) k (fuel + 1) n buf = some (buf', m) ∧ m < 65536 ∧
      buf' ++ Nat.digits base m = buf ++ Nat.digits base n := by
  have hpos : 2 ≤ base ^ k := by
    calc 2 ≤ base ^ 1 := by rwa [Nat.pow_one]
      _ ≤ base ^ k := Nat.pow_le_pow_right (by omega) hk
  -- by induction on the fuel, as every turn at least halves the number
  induction fuel generalizing n buf with
  | zero => exact absurd (Nat.lt_one_iff.1 hn) h0
  | succ fuel ih =>
      rw [chunkLoop]
      by_cases hlt : base ^ k < n
      · have hhalf : n / base ^ k ≤ n / 2 := Nat.div_le_div_left hpos (by decide)
        have hquot : n / base ^ k ≠ 0 := by
          have := Nat.div_pos (Nat.le_of_lt hlt) (by omega)
          omega
        -- the remainder fits the sixteen bits it is kept in
        have hrem : (n - n / base ^ k * base ^ k) % 65536 = n % base ^ k := by
          rw [sub_div_mul]
          exact Nat.mod_eq_of_lt (Nat.lt_trans (Nat.mod_lt _ (by omega)) hpow)
        obtain ⟨buf', m, heq, hm, hdigits⟩ :=
          ih (n / base ^ k) (buf ++ lowDigits base k (n % base ^ k))
            (by rw [Nat.pow_succ] at hn; omega) hquot
        refine ⟨buf', m, ?_, hm, ?_⟩
        · rw [if_pos hlt]
          change chunkLoop base (base ^ k) k (fuel + 1) (n / base ^ k)
            (buf ++ lowDigits base k ((n - n / base ^ k * base ^ k) % 65536)) = _
          rw [hrem]
          exact heq
        · rw [hdigits, List.append_assoc, ← digits_low hbase k n hquot]
      · exact ⟨buf, n, by rw [if_neg hlt], by omega, rfl⟩

/-- The part of 16 bits takes all digits. -/
theorem restLoop_eq {base : Nat} (hbase : 2 ≤ base) (fuel n : Nat) (buf : List Nat)
    (hn : n < 2 ^ fuel) : restLoop base (fuel + 1) n buf = some (buf ++ Nat.digits base n) := by
  induction fuel generalizing n buf with
  | zero =>
      rw [Nat.lt_one_iff.1 hn, restLoop, if_neg (Nat.lt_irrefl 0), Nat.digits_zero,
        List.append_nil]
  | succ fuel ih =>
      rw [restLoop]
      by_cases h0 : 0 < n
      · have hhalf : n / base ≤ n / 2 := Nat.div_le_div_left hbase (by decide)
        rw [if_pos h0, ih _ _ (by rw [Nat.pow_succ] at hn; omega), List.append_assoc,
          List.singleton_append, sub_div_mul,
          ← Nat.digits_eq_cons_digits_div hbase (Nat.pos_iff_ne_zero.1 h0)]
      · rw [if_neg h0, Nat.eq_zero_of_not_pos h0, Nat.digits_zero, List.append_nil]

/-- `printULLNumber` finds the digits. -/
theorem printULLNumber_eq (n64 : UInt64) (base : UInt8) :
    printULLNumber n64 base = some ((digitsOf (usedBase base) n64.toNat).map digitChar) := by
  rw [printULLNumber]
  by_cases h0 : n64 = 0
  · rw [if_pos h0, h0]
    rfl
  · have hn : n64.toNat ≠ 0 := fun h => h0 (UInt64.toNat_inj.1 h)
    obtain ⟨hbase, hsmall⟩ := two_le_usedBase base
    have hpow0 : usedBase base ^ 0 < 65536 := by
      rw [Nat.pow_zero]
      decide
    obtain ⟨k, -, hwiden, hpow, htop⟩ := widen_spec hbase 16 0 hpow0 (Nat.le_refl 16)
    have hk : 1 ≤ k := by
      -- the first power is below the bound for every base of 8 bits
      rw [Nat.one_le_iff_ne_zero]
      rintro rfl
      have : 257 ≤ 65535 / usedBase base := (Nat.le_div_iff_mul_le (by omega)).2 (by omega)
      rw [Nat.pow_zero] at htop
      omega
    obtain ⟨buf, m, hchunk, hm, hdigits⟩ := chunkLoop_spec hbase hk hpow 64 n64.toNat []
      n64.toNat_lt hn
    rw [List.nil_append] at hdigits
    have hlen : (Nat.digits (usedBase base) n64.toNat).length ≤ 64 := by
      rw [Nat.digits_length_le_iff (by omega)]
      exact Nat.lt_of_lt_of_le n64.toNat_lt (Nat.pow_le_pow_left hbase 64)
    rw [Nat.pow_zero] at hwiden
    rw [if_neg h0]
    simp only [hwiden, hchunk, Nat.mod_eq_of_lt hm, restLoop_eq hbase 16 m buf hm, hdigits,
      Option.bind_eq_bind, Option.bind_some, if_pos hlen]
    rw [digitsOf, if_neg hn]

/-- In a base of at most 36 the fast printer agrees with its reference, neither leaves its
    buffer, and the numeral is what they print. -/
theorem printULLNumber_reference (n64 : UInt64) (base : UInt8) (hbase : base ≤ 36) :
    printULLNumber n64 base = referenceULLNumber n64 base ∧
      referenceULLNumber n64 base = some (numeral (usedBase base) n64.toNat) := by
  have hwritten := map_digitChar_eq (two_le_usedBase base).1 (usedBase_le hbase) n64.toNat
  have href : referenceULLNumber n64 base = some (numeral (usedBase base) n64.toNat) := by
    rw [referenceULLNumber, numberLoop_eq (two_le_usedBase base).1 63 n64.toNat [] n64.toNat_lt,
      List.append_nil, Option.map_some, hwritten.1, hwritten.2]
  refine ⟨?_, href⟩
  rw [printULLNumber_eq, href, hwritten.1]

/-- All 64 bits, in the base with the most characters. -/
theorem printULLNumber_reference_largest :
    printULLNumber 18446744073709551615 36 = referenceULLNumber 18446744073709551615 36 ∧
      referenceULLNumber 18446744073709551615 36 =
        some [51, 87, 53, 69, 49, 49, 50, 54, 52, 83, 71, 83, 70] :=
  ⟨(printULLNumber_reference 18446744073709551615 36 (by decide)).1, by decide +kernel⟩

/-- From 209 on there is a digit whose character is the terminator: the fast printer writes it,
    and the reference ends there. -/
example : printULLNumber 208 209 = some [0] ∧ referenceULLNumber 208 209 = some [] := by
  decide +kernel

/-! ### Reading a number back -/

theorem toLong_step (v d : Int) :
    toLong (toLong v * 10 + (d + 48) - 48) = toLong (v * 10 + d) := by
  have h : toLong v * 10 + (d + 48) - 48 = toLong v * 10 + d := by omega
  rw [h, toLong, toLong, toLong, ← Int.bmod_add_bmod, Int.bmod_mul_bmod, Int.bmod_add_bmod]

theorem toLong_neg (v : Int) : toLong (-toLong v) = toLong (-v) :=
  Int.bmod_neg_bmod

theorem toNat_numeralChar {d : Nat} (hd : d < 10) : (numeralChar d).toNat = d + 48 := by
  rw [numeralChar, if_pos hd, UInt8.toNat_ofNat']
  omega

theorem isDigit_numeralChar {d : Nat} (hd : d < 10) : isDigit (numeralChar d) = true := by
  have h := toNat_numeralChar hd
  rw [isDigit, Bool.and_eq_true, decide_eq_true_iff, decide_eq_true_iff, UInt8.le_iff_toNat_le,
    UInt8.le_iff_toNat_le, h]
  exact ⟨Nat.le_add_left 48 d, by change d + 48 ≤ 57; omega⟩

theorem numeralChar_ne_sign {d : Nat} (hd : d < 10) : numeralChar d ≠ 45 := by
  intro h
  have := toNat_numeralChar hd
  rw [h] at this
  change 45 = d + 48 at this
  omega

/-- The value of decimal digits behind a value. -/
def decimal (v : Int) (ds : List Nat) : Int :=
  ds.foldl (fun (v : Int) (d : Nat) => v * 10 + d) v

/-- The characters of a decimal numeral, and the value they stand for. -/
theorem numeral_ten (n : Nat) :
    ∃ ds : List Nat, numeral 10 n = ds.map numeralChar ∧ (∀ d ∈ ds, d < 10) ∧ ds ≠ [] ∧
      decimal 0 ds = n := by
  refine ⟨digitsOf 10 n, rfl, digitsOf_lt (by decide), ?_⟩
  rw [digitsOf]
  split_ifs with h0
  · exact ⟨by decide, by rw [h0]; rfl⟩
  · constructor
    · rw [Ne, List.reverse_eq_nil_iff]
      exact Nat.digits_ne_nil_iff_ne_zero.2 h0
    · have hvalue : ∀ ds : List Nat,
          ds.foldr (fun (d : Nat) (v : Int) => v * 10 + d) 0 = (Nat.ofDigits 10 ds : Nat) := by
        intro ds
        induction ds with
        | nil => rfl
        | cons d ds ih =>
            rw [List.foldr_cons, ih, Nat.ofDigits_cons]
            push_cast
            ring
      rw [decimal, List.foldl_reverse, hvalue, Nat.ofDigits_digits]

/-- The characters that are ignored change nothing. -/
theorem foldl_ignored (ignore : UInt8) (number : List UInt8) (acc : Bool × Int) :
    number.foldl (accumulate ignore) acc =
      (number.filter (· ≠ ignore)).foldl (accumulate ignore) acc := by
  rw [List.foldl_filter]
  congr 1
  funext acc c
  by_cases hc : c = ignore
  · rw [if_neg (by simpa using hc), accumulate, if_pos hc]
  · rw [if_pos (by simpa using hc)]

/-- Digits add to the value, cut to a `long` at every step. -/
theorem foldl_digits (ignore : UInt8) (sign : Bool) (v : Int) (ds : List Nat)
    (hds : ∀ d ∈ ds, d < 10) (hne : ignore ∉ ds.map numeralChar) :
    (ds.map numeralChar).foldl (accumulate ignore) (sign, toLong v) =
      (sign, toLong (decimal v ds)) := by
  induction ds generalizing v with
  | nil => rfl
  | cons d ds ih =>
      have hd := hds d List.mem_cons_self
      rw [List.map_cons, List.mem_cons, not_or] at hne
      rw [List.map_cons, List.foldl_cons, decimal, List.foldl_cons, accumulate,
        if_neg fun h => hne.1 h.symm, if_neg (numeralChar_ne_sign hd),
        if_pos (isDigit_numeralChar hd), toNat_numeralChar hd]
      push_cast
      rw [toLong_step]
      exact ih _ (fun x hx => hds x (List.mem_cons_of_mem d hx)) hne.2

theorem toNat_toUInt32 (n : Int32) :
    n.toUInt32.toNat = if n.toInt < 0 then (n.toInt + 2 ^ 32).toNat else n.toInt.toNat := by
  change n.toBitVec.toNat = _
  rw [← Int32.toInt_toBitVec, BitVec.toInt_eq_toNat_cond]
  have := n.toBitVec.isLt
  split_ifs <;> omega

/-- What is printed of a number: a sign and its numeral. -/
theorem print_ten (n : Int32) :
    print n 10 = some (if n.toInt < 0 then 45 :: numeral 10 n.toInt.natAbs
      else numeral 10 n.toInt.natAbs) := by
  have hten : usedBase 10 = 10 := rfl
  rw [print, if_neg (by decide), if_pos rfl, printNumber_eq _ 10 (by decide),
    printNumber_eq _ 10 (by decide), hten]
  have hlow := Int32.le_toInt n
  have hhigh := Int32.toInt_lt n
  by_cases hneg : n.toInt < 0
  · rw [if_pos hneg, if_pos (Int32.lt_iff_toInt_lt.2 hneg), Option.map_some]
    -- the smallest number is its own negative, and as an unsigned one its absolute value
    have habs : (-n).toUInt32.toNat = n.toInt.natAbs := by
      rw [toNat_toUInt32, Int32.toInt_neg]
      rw [Int.bmod_def]
      split_ifs <;> omega
    rw [habs]
  · rw [if_neg hneg, if_neg fun h => hneg (Int32.lt_iff_toInt_lt.1 h), toNat_toUInt32,
      if_neg hneg]
    congr 2
    omega

/-- The reader passes over what it may, and finds the first character of the number. -/
theorem peekNextDigit_of_prompt {lookahead : LookaheadMode} {ending : Ending}
    {ticks : List (Tick UInt8)} {junk : List UInt8} {c : UInt8} {rest : List UInt8}
    (hprompt : Prompt ticks) (hitems : items ticks = junk ++ c :: rest)
    (hjunk : ∀ x ∈ junk, lookahead.skips x = true ∧ x ≠ 45 ∧ isDigit x = false)
    (hc : c = 45 ∨ isDigit c = true) :
    ∃ ticks', peekNextDigit lookahead ending ticks = (some c, ⟨.item c :: ticks', ending⟩) ∧
      items ticks' = rest ∧ Prompt ticks' := by
  -- by induction on the arrivals; junk is skipped, and the pauses are waited out
  induction ticks generalizing junk with
  | nil =>
      exact absurd hitems.symm (List.append_ne_nil_of_right_ne_nil junk (List.cons_ne_nil c rest))
  | cons x ticks ih =>
      cases x with
      | item a =>
          rw [items_item] at hitems
          rw [peekNextDigit]
          cases junk with
          | nil =>
              rw [List.nil_append, List.cons.injEq] at hitems
              obtain ⟨rfl, hrest⟩ := hitems
              rw [if_pos (by simpa using hc)]
              exact ⟨ticks, rfl, hrest, hprompt.tail⟩
          | cons y junk =>
              rw [List.cons_append, List.cons.injEq] at hitems
              obtain ⟨rfl, hrest⟩ := hitems
              obtain ⟨hskip, hsign, hdigit⟩ := hjunk a List.mem_cons_self
              rw [if_neg (by simp [hsign, hdigit]), if_pos hskip]
              exact ih hprompt.tail hrest fun x hx => hjunk x (List.mem_cons_of_mem a hx)
      | wait => exact ih hprompt.tail hitems hjunk
      | silence => exact absurd rfl (hprompt _ List.mem_cons_self)

/-- The value of a printed number, with ignored characters between its own. -/
theorem numberValue_of_print (n : Int32) (ignore : UInt8) (number : List UInt8)
    (h : print n 10 = some (number.filter (· ≠ ignore))) :
    numberValue ignore number = n.toInt := by
  obtain ⟨ds, hds, hlt, -, hvalue⟩ := numeral_ten n.toInt.natAbs
  have hlow := Int32.le_toInt n
  have hhigh := Int32.toInt_lt n
  have hfits : ∀ v : Int, -2 ^ 31 ≤ v → v < 2 ^ 31 → toLong v = v :=
    fun v hlow hhigh => Int.bmod_eq_of_le (by omega) (by omega)
  -- the ignored character is none of the printed ones
  have hkept : ignore ∉ number.filter (· ≠ ignore) := by
    intro hmem
    simpa using (List.mem_filter.1 hmem).2
  rw [print_ten, Option.some_inj, hds] at h
  rw [← h] at hkept
  rw [numberValue, foldl_ignored, ← h]
  -- the sign is the first character or is not there
  by_cases hneg : n.toInt < 0
  · rw [if_pos hneg, List.mem_cons, not_or] at hkept
    have hfold : (45 :: ds.map numeralChar).foldl (accumulate ignore) (false, 0) =
        (true, toLong (decimal 0 ds)) := by
      rw [List.foldl_cons, accumulate, if_neg fun h => hkept.1 h.symm, if_pos rfl]
      exact foldl_digits ignore true 0 ds hlt hkept.2
    rw [if_pos hneg, hfold, hvalue, if_pos rfl, toLong_neg, hfits] <;> omega
  · rw [if_neg hneg] at hkept
    have hfold : (ds.map numeralChar).foldl (accumulate ignore) (false, 0) =
        (false, toLong (decimal 0 ds)) := foldl_digits ignore false 0 ds hlt hkept
    rw [if_neg hneg, hfold, hvalue, if_neg Bool.false_ne_true, hfits] <;> omega

/-- What was printed of a number is found again, whatever the reader may pass over comes before
    it and however its characters arrive, with ignored characters between them or not. -/
theorem parseInt_print (n : Int32) (lookahead : LookaheadMode) (ignore : UInt8)
    (s : Source UInt8) (junk number : List UInt8) (stop : UInt8) (rest : List UInt8)
    (hprompt : Prompt s.ticks) (hitems : items s.ticks = junk ++ (number ++ stop :: rest))
    (hjunk : ∀ c ∈ junk, lookahead.skips c = true ∧ c ≠ 45 ∧ isDigit c = false)
    (hnumber : print n 10 = some (number.filter (· ≠ ignore)))
    (hhead : number.head? ≠ some ignore) (hstop : isDigit stop = false ∧ stop ≠ ignore) :
    (parseInt lookahead ignore s).1 = n.toInt ∧
      items (parseInt lookahead ignore s).2.ticks = stop :: rest := by
  obtain ⟨ds, hds, hlt, hne, -⟩ := numeral_ten n.toInt.natAbs
  -- the first character is a sign or a digit, and those behind it are digits or ignored
  have hshape : ∃ c tail, number = c :: tail ∧ (c = 45 ∨ isDigit c = true) ∧
      ∀ x ∈ tail, inNumber ignore x = true := by
    have hdigits : ∀ (tail : List UInt8) (es : List Nat), (∀ d ∈ es, d < 10) →
        tail.filter (· ≠ ignore) = es.map numeralChar →
        ∀ x ∈ tail, inNumber ignore x = true := by
      intro tail es hes hfilter x hx
      by_cases hignore : x = ignore
      · rw [hignore, inNumber, beq_self_eq_true, Bool.or_true]
      · have hmem := hfilter ▸ List.mem_filter.2 ⟨hx, by simpa using hignore⟩
        obtain ⟨d, hd, rfl⟩ := List.mem_map.1 hmem
        rw [inNumber, isDigit_numeralChar (hes d hd), Bool.true_or]
    rw [print_ten, Option.some_inj, hds] at hnumber
    cases number with
    | nil =>
        rw [List.filter_nil] at hnumber
        split_ifs at hnumber
        exact absurd (List.map_eq_nil_iff.1 hnumber) hne
    | cons c tail =>
        have hc : c ≠ ignore := fun h => hhead (by rw [h]; rfl)
        rw [List.filter_cons_of_pos (by simpa using hc)] at hnumber
        refine ⟨c, tail, rfl, ?_⟩
        by_cases hneg : n.toInt < 0
        · rw [if_pos hneg, List.cons.injEq] at hnumber
          exact ⟨Or.inl hnumber.1.symm, hdigits tail ds hlt hnumber.2.symm⟩
        · rw [if_neg hneg] at hnumber
          cases ds with
          | nil => exact absurd rfl hne
          | cons d ds =>
              rw [List.map_cons, List.cons.injEq] at hnumber
              rw [← hnumber.1]
              exact ⟨Or.inr (isDigit_numeralChar (hlt d List.mem_cons_self)),
                hdigits tail ds (fun x hx => hlt x (List.mem_cons_of_mem d hx)) hnumber.2.symm⟩
  obtain ⟨c, tail, rfl, hc, htail⟩ := hshape
  -- the peek stops at the first character of the number, and the loop behind its last one
  obtain ⟨ticks', hpeek, hrest, hprompt'⟩ :
      ∃ ticks', peekNextDigit lookahead s.ending s.ticks =
          (some c, ⟨.item c :: ticks', s.ending⟩) ∧
        items ticks' = tail ++ stop :: rest ∧ Prompt ticks' :=
    peekNextDigit_of_prompt hprompt hitems hjunk hc
  have hstays : ¬inNumber ignore stop = true := by
    simpa [inNumber, hstop.1] using hstop.2
  obtain ⟨htaken, hleft⟩ := peekWhile_of_prompt (inNumber ignore) s.ending hprompt'
  rw [hrest, List.takeWhile_append_of_pos htail, List.takeWhile_cons_of_neg hstays,
    List.append_nil] at htaken
  rw [hrest, List.dropWhile_append_of_pos htail, List.dropWhile_cons_of_neg hstays] at hleft
  rw [parseInt, hpeek]
  refine ⟨?_, hleft⟩
  change numberValue ignore (c :: (peekWhile (inNumber ignore) s.ending ticks').1) = _
  rw [htaken]
  exact numberValue_of_print n ignore (c :: tail) hnumber

/-- A number among words, with blanks in it and a pause in the middle. -/
theorem parseInt_print_demo :
    (parseInt .skipAll 32 ⟨[.item 97, .item 45, .item 49, .wait, .item 32, .item 50, .item 59],
      .stays⟩).1 = (-12 : Int32).toInt ∧
    items (parseInt .skipAll 32 ⟨[.item 97, .item 45, .item 49, .wait, .item 32, .item 50,
      .item 59], .stays⟩).2.ticks = [59] :=
  parseInt_print (-12) .skipAll 32 _ [97] [45, 49, 32, 50] 59 [] (by simp [Prompt]) rfl
    (List.forall_mem_singleton.2 ⟨rfl, by decide, rfl⟩) (by decide) (by decide) (by decide)

end Print

end Core

end ArduinoBeken
