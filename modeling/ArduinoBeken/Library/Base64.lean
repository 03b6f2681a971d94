import Mathlib.Data.List.Basic
import Mathlib.Tactic.Common

/-!
# Base64

Bytes as characters of an alphabet of 64, six bits a character, with padding to groups of four.
Nothing here is specific to one system.

Three bytes make a group; what is left makes a last one of two or three characters and padding.
So the encoding of two texts in a row is that of the first and that of the second if the first
has whole groups, and a group is read back alone (`decode_encode`).

## Main definitions

* `digit`, `value`: The alphabet, and what its characters stand for.
* `encode`, `decode`: The encoding and its reader.

## Theorems

* `encode_append`: Whole groups are encoded on their own.
* `decode_encode`: What is encoded is read back.
* `length_encode`: How many characters there are.
-/

namespace Base64

/-- The character for six bits. -/
def digit (v : Nat) : UInt8 :=
  if v < 26 then UInt8.ofNat (v + 65)
  else if v < 52 then UInt8.ofNat (v + 71)
  else if v < 62 then UInt8.ofNat (v - 4)
  else if v = 62 then 43
  else 47

/-- The six bits a character stands for. -/
def value (c : UInt8) : Option Nat :=
  if 65 ≤ c ∧ c ≤ 90 then some (c.toNat - 65)
  else if 97 ≤ c ∧ c ≤ 122 then some (c.toNat - 71)
  else if 48 ≤ c ∧ c ≤ 57 then some (c.toNat + 4)
  else if c = 43 then some 62
  else if c = 47 then some 63
  else none

/-- Three bytes become four digits, and what is left at the end is filled up. -/
def encode : List UInt8 → List UInt8
  | [] => []
  | [a] => [digit (a.toNat / 4), digit (a.toNat % 4 * 16), 61, 61]
  | [a, b] =>
    [digit (a.toNat / 4), digit (a.toNat % 4 * 16 + b.toNat / 16), digit (b.toNat % 16 * 4), 61]
  | a :: b :: c :: rest =>
    digit (a.toNat / 4) :: digit (a.toNat % 4 * 16 + b.toNat / 16) ::
      digit (b.toNat % 16 * 4 + c.toNat / 64) :: digit (c.toNat % 64) :: encode rest

/-- The bytes that the six bits of characters make up. -/
def firstByte (v w : Nat) : UInt8 :=
  UInt8.ofNat (v * 4 + w / 16)

/-- The second of the three bytes, of which the first has left four bits. -/
def secondByte (w x : Nat) : UInt8 :=
  UInt8.ofNat (w % 16 * 16 + x / 4)

/-- The third of the three bytes. -/
def thirdByte (x y : Nat) : UInt8 :=
  UInt8.ofNat (x % 4 * 64 + y)

/-- Four digits become three bytes, or fewer at the end. -/
def decode : List UInt8 → Option (List UInt8)
  | [] => some []
  | [c, d, 61, 61] => do
    let v ← value c
    let w ← value d
    return [firstByte v w]
  | [c, d, e, 61] => do
    let v ← value c
    let w ← value d
    let x ← value e
    return [firstByte v w, secondByte w x]
  | c :: d :: e :: f :: rest => do
    let v ← value c
    let w ← value d
    let x ← value e
    let y ← value f
    let more ← decode rest
    return firstByte v w :: secondByte w x :: thirdByte x y :: more
  | _ => none

/-! ### The alphabet -/

theorem digit_spec : ∀ v : Fin 64, value (digit v) = some v ∧ digit v ≠ 61 := by
  decide

theorem value_digit {v : Nat} (hv : v < 64) : value (digit v) = some v :=
  (digit_spec ⟨v, hv⟩).1

theorem digit_ne_pad {v : Nat} (hv : v < 64) : digit v ≠ 61 :=
  (digit_spec ⟨v, hv⟩).2

theorem first_lt (a : UInt8) : a.toNat / 4 < 64 := by
  have := a.toNat_lt
  omega

theorem second_lt (a b : UInt8) : a.toNat % 4 * 16 + b.toNat / 16 < 64 := by
  have := b.toNat_lt
  omega

theorem third_lt (b c : UInt8) : b.toNat % 16 * 4 + c.toNat / 64 < 64 := by
  have := c.toNat_lt
  omega

theorem firstByte_eq (a b : UInt8) :
    firstByte (a.toNat / 4) (a.toNat % 4 * 16 + b.toNat / 16) = a := by
  have := b.toNat_lt
  have h : a.toNat / 4 * 4 + (a.toNat % 4 * 16 + b.toNat / 16) / 16 = a.toNat := by omega
  rw [firstByte, h, UInt8.ofNat_toNat]

theorem secondByte_eq (a b c : UInt8) :
    secondByte (a.toNat % 4 * 16 + b.toNat / 16) (b.toNat % 16 * 4 + c.toNat / 64) = b := by
  have := b.toNat_lt
  have := c.toNat_lt
  have h : (a.toNat % 4 * 16 + b.toNat / 16) % 16 * 16 + (b.toNat % 16 * 4 + c.toNat / 64) / 4 =
      b.toNat := by omega
  rw [secondByte, h, UInt8.ofNat_toNat]

theorem thirdByte_eq (b c : UInt8) :
    thirdByte (b.toNat % 16 * 4 + c.toNat / 64) (c.toNat % 64) = c := by
  have := c.toNat_lt
  have h : (b.toNat % 16 * 4 + c.toNat / 64) % 4 * 64 + c.toNat % 64 = c.toNat := by omega
  rw [thirdByte, h, UInt8.ofNat_toNat]

/-! ### Round trip -/

/-- Whole groups are encoded on their own. -/
theorem encode_append (s t : List UInt8) (h : 3 ∣ s.length) :
    encode (s ++ t) = encode s ++ encode t := by
  -- induction on the groups of three; a shorter end would break the divisibility
  induction s using encode.induct with
  | case1 => rfl
  | case2 a =>
      rw [List.length_singleton] at h
      omega
  | case3 a b =>
      rw [List.length_cons, List.length_singleton] at h
      omega
  | case4 a b c rest ih =>
      rw [List.length_cons, List.length_cons, List.length_cons] at h
      rw [List.cons_append, List.cons_append, List.cons_append, encode, encode,
        ih (by omega)]
      rfl

theorem length_encode (s : List UInt8) : (encode s).length = (s.length + 2) / 3 * 4 := by
  induction s using encode.induct with
  | case1 => rfl
  | case2 a => simp only [encode, List.length_cons, List.length_nil]
  | case3 a b => simp only [encode, List.length_cons, List.length_nil]
  | case4 a b c rest ih =>
      simp only [encode, List.length_cons, ih]
      omega

/-- What is encoded is read back. -/
theorem decode_encode (s : List UInt8) : decode (encode s) = some s := by
  -- one case for each way a group can end
  induction s using encode.induct with
  | case1 => rfl
  | case2 a =>
      have h := firstByte_eq a 0
      change firstByte _ (a.toNat % 4 * 16) = a at h
      have hw := second_lt a 0
      change a.toNat % 4 * 16 < 64 at hw
      simp [encode, decode, value_digit (first_lt a), value_digit hw, h]
  | case3 a b =>
      have h := secondByte_eq a b 0
      change secondByte _ (b.toNat % 16 * 4) = b at h
      have hx := third_lt b 0
      change b.toNat % 16 * 4 < 64 at hx
      rw [encode, decode]
      · simp [value_digit (first_lt a), value_digit (second_lt a b), value_digit hx,
          firstByte_eq, h]
      · exact digit_ne_pad hx
  | case4 a b c rest ih =>
      rw [encode, decode]
      · simp [value_digit (first_lt a), value_digit (second_lt a b), value_digit (third_lt b c),
          value_digit (Nat.mod_lt c.toNat (show 0 < 64 by decide)), firstByte_eq, secondByte_eq,
          thirdByte_eq, ih]
      · intro _ h _
        exact digit_ne_pad (Nat.mod_lt c.toNat (by decide)) h
      · intro h _
        exact digit_ne_pad (Nat.mod_lt c.toNat (by decide)) h

end Base64
