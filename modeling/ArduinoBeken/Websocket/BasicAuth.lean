import ArduinoBeken.Core.Base64Encoder
import ArduinoBeken.Http.Url

/-!
# Credentials of the Two HTTP Clients

`HttpClient::sendBasicAuth` encodes a user and a password three bytes at a time with a Base64
encoder of its own, `b64_encode`, and prints each group as it is done. `HTTPClient` encodes the
same text in one go with the encoder of the core. Both send the same characters, and they read
back as the user and the password (`credentials_agree`).

`b64_encode` looks at the room for its output, but not closely enough: it asks for less than it
writes. Where there is room for all groups it writes the encoding (`b64Encode_eq`); its callers
leave that room.

## Main definitions

* `b64Group`, `b64Encode`: `b64_encode`.
* `authLoop`, `sendBasicAuth`: The header of a request.

## Theorems

* `b64Encode_eq`: With room for it, the encoding is written.
* `authLoop_eq`: The groups one after the other.
* `credentials_agree`: Both clients send the same.
-/

namespace ArduinoBeken

namespace Websocket

open Core.Base64Encoder (encoding masks_eq or_toNat)

/-- A digit of base 64. -/
def b64Dictionary (i : UInt8) : UInt8 :=
  ((encoding[i.toNat]?).map fun c => UInt8.ofNat c.toNat).getD 0

/-- What `b64_encode` writes of up to three bytes. -/
def b64Group (aOutputLen : Nat) (aInput : List UInt8) : List UInt8 :=
  if aOutputLen < aInput.length * 8 / 6 then []
  else
    match aInput with
    | [a, b, c] =>
      [b64Dictionary (a >>> 2), b64Dictionary ((a &&& 0x3) <<< 4 ||| b >>> 4),
        b64Dictionary ((b &&& 0x0f) <<< 2 ||| c >>> 6), b64Dictionary (c &&& 0x3f)]
    | [a, b] =>
      [b64Dictionary (a >>> 2), b64Dictionary ((a &&& 0x3) <<< 4 ||| b >>> 4),
        b64Dictionary ((b &&& 0x0f) <<< 2), 61]
    | [a] => [b64Dictionary (a >>> 2), b64Dictionary ((a &&& 0x3) <<< 4), 61, 61]
    | _ => []

/-- What `b64_encode` writes. -/
def b64Encode (aInput : List UInt8) (aOutputLen : Nat) : List UInt8 :=
  if aOutputLen < aInput.length * 8 / 6 then []
  else if 0 < aInput.length ∧ aInput.length ≤ 3 then b64Group aOutputLen aInput
  else
    let i := aInput.length / 3
    (List.range i).flatMap (fun i => b64Group 4 ((aInput.drop (i * 3)).take 3)) ++
      if 0 < aInput.length % 3 then b64Group (aOutputLen - i * 4) (aInput.drop (i * 3)) else []

/-- The loop of `sendBasicAuth` over the bytes of the user, the colon and the password, with
those of a group that is not whole yet. -/
def authLoop (input : List UInt8) : List UInt8 → List UInt8
  | [] => []
  | c :: rest =>
    if (input ++ [c]).length = 3 ∨ rest = [] then b64Encode (input ++ [c]) 4 ++ authLoop [] rest
    else authLoop (input ++ [c]) rest

/-- The bytes of a text. -/
def ascii (s : String) : List UInt8 :=
  s.toList.map fun c => UInt8.ofNat c.toNat

/-- `sendBasicAuth`. -/
def sendBasicAuth (aUser aPassword : List UInt8) : List UInt8 :=
  ascii "Authorization: Basic " ++ authLoop [] (aUser ++ 58 :: aPassword) ++ [13, 10]

/-! ### Groups -/

theorem b64Dictionary_digit : ∀ v : Fin 64, b64Dictionary (UInt8.ofNat v) = Base64.digit v := by
  decide +kernel

theorem b64Dictionary_eq {x : UInt8} {v : Nat} (hx : x.toNat = v) (hv : v < 64) :
    b64Dictionary x = Base64.digit v := by
  have hval : UInt8.ofNat v = x := by rw [← hx, UInt8.ofNat_toNat]
  rw [← hval]
  exact b64Dictionary_digit ⟨v, hv⟩

theorem shiftRight_toNat (x : UInt8) :
    (x >>> 2).toNat = x.toNat / 4 ∧ (x >>> 4).toNat = x.toNat / 16 ∧
      (x >>> 6).toNat = x.toNat / 64 := by
  refine ⟨?_, ?_, ?_⟩ <;> rw [UInt8.toNat_shiftRight] <;> exact Nat.shiftRight_eq_div_pow _ _

/-- A group is its encoding. -/
theorem b64Group_eq {aInput : List UInt8} (aOutputLen : Nat) (h : aInput.length ≤ 3)
    (hroom : aInput ≠ [] → 4 ≤ aOutputLen) :
    b64Group aOutputLen aInput = Base64.encode aInput := by
  have hlen : ¬aOutputLen < aInput.length * 8 / 6 := by
    by_cases hnil : aInput = []
    · rw [hnil]
      exact Nat.not_lt_zero _
    · have := hroom hnil
      omega
  unfold b64Group
  rw [if_neg hlen]
  -- a group of three bytes, or the rest of one or two that is padded
  match aInput, h with
  | [], _ => rfl
  | [a], _ =>
      obtain ⟨-, hlow2, -⟩ := masks_eq a
      have ha := a.toNat_lt
      have hsecond : a.toNat % 4 * 16 < 64 := by omega
      change [b64Dictionary (a >>> 2), b64Dictionary ((a &&& 0x3) <<< 4), 61, 61] = _
      rw [b64Dictionary_eq (shiftRight_toNat a).1 (Base64.first_lt a),
        b64Dictionary_eq hlow2 hsecond]
      rfl
  | [a, b], _ =>
      obtain ⟨-, hlow2, -⟩ := masks_eq a
      obtain ⟨-, -, -, hlow4, -⟩ := masks_eq b
      have hb := b.toNat_lt
      have hor := or_toNat (k := 4) hlow2 (shiftRight_toNat b).2.1 (by omega)
      have hthird : b.toNat % 16 * 4 < 64 := by omega
      change [b64Dictionary (a >>> 2), b64Dictionary ((a &&& 0x3) <<< 4 ||| b >>> 4),
        b64Dictionary ((b &&& 0x0f) <<< 2), 61] = _
      rw [b64Dictionary_eq (shiftRight_toNat a).1 (Base64.first_lt a),
        b64Dictionary_eq hor (Base64.second_lt a b), b64Dictionary_eq hlow4 hthird]
      rfl
  | [a, b, c], _ =>
      obtain ⟨-, hlow2, -⟩ := masks_eq a
      obtain ⟨-, -, -, hlow4, -⟩ := masks_eq b
      obtain ⟨-, -, -, -, -, hlow6⟩ := masks_eq c
      have hb := b.toNat_lt
      have hc := c.toNat_lt
      have hor := or_toNat (k := 4) hlow2 (shiftRight_toNat b).2.1 (by omega)
      have hor' := or_toNat (k := 2) hlow4 (shiftRight_toNat c).2.2 (by omega)
      have hlast : c.toNat % 64 < 64 := Nat.mod_lt _ (by decide)
      change [b64Dictionary (a >>> 2), b64Dictionary ((a &&& 0x3) <<< 4 ||| b >>> 4),
        b64Dictionary ((b &&& 0x0f) <<< 2 ||| c >>> 6), b64Dictionary (c &&& 0x3f)] = _
      rw [b64Dictionary_eq (shiftRight_toNat a).1 (Base64.first_lt a),
        b64Dictionary_eq hor (Base64.second_lt a b), b64Dictionary_eq hor' (Base64.third_lt b c),
        b64Dictionary_eq hlow6 hlast]
      rfl

/-- Whole groups one after the other are the encoding of their bytes. -/
theorem groups_eq (aInput : List UInt8) (n : Nat) (hn : n * 3 ≤ aInput.length) :
    (List.range n).flatMap (fun i => b64Group 4 ((aInput.drop (i * 3)).take 3)) =
      Base64.encode (aInput.take (n * 3)) := by
  induction n with
  | zero =>
      rw [Nat.zero_mul, List.take_zero]
      rfl
  | succ n ih =>
      have hsplit : aInput.take ((n + 1) * 3) =
          aInput.take (n * 3) ++ (aInput.drop (n * 3)).take 3 := by
        rw [Nat.succ_mul, List.take_add]
      have hgroup : ((aInput.drop (n * 3)).take 3).length ≤ 3 := List.length_take_le _ _
      rw [List.range_succ, List.flatMap_append, ih (by omega), hsplit, Base64.encode_append,
        List.flatMap_singleton, b64Group_eq 4 hgroup fun _ => Nat.le_refl 4]
      rw [List.length_take, Nat.min_eq_left (by omega)]
      exact Nat.dvd_mul_left 3 n

/-- With room for all groups, the encoding is written. -/
theorem b64Encode_eq (aInput : List UInt8) (aOutputLen : Nat)
    (hroom : (aInput.length + 2) / 3 * 4 ≤ aOutputLen) :
    b64Encode aInput aOutputLen = Base64.encode aInput := by
  rw [b64Encode, if_neg (by omega)]
  by_cases hshort : 0 < aInput.length ∧ aInput.length ≤ 3
  · rw [if_pos hshort, b64Group_eq _ hshort.2 fun _ => by omega]
  · rw [if_neg hshort]
    have hwhole : aInput.length / 3 * 3 ≤ aInput.length := Nat.div_mul_le_self _ _
    have hrest : (if 0 < aInput.length % 3 then
        b64Group (aOutputLen - aInput.length / 3 * 4) (aInput.drop (aInput.length / 3 * 3))
        -- the rest is a group of its own, or there is none
        else []) = Base64.encode (aInput.drop (aInput.length / 3 * 3)) := by
      have hlen : (aInput.drop (aInput.length / 3 * 3)).length = aInput.length % 3 := by
        rw [List.length_drop]
        omega
      split_ifs with hmod
      · exact b64Group_eq _ (by omega) fun _ => by omega
      · rw [List.length_eq_zero_iff.1 (hlen.trans (by omega))]
        rfl
    simp only [groups_eq aInput _ hwhole, hrest]
    rw [← Base64.encode_append, List.take_append_drop]
    rw [List.length_take, Nat.min_eq_left hwhole]
    exact Nat.dvd_mul_left 3 _

/-! ### The header -/

/-- The groups that are printed one after the other are the encoding of the text. -/
theorem authLoop_eq (text input : List UInt8) (hinput : input.length < 3)
    (hnil : text = [] → input = []) : authLoop input text = Base64.encode (input ++ text) := by
  -- induction on the text, with the bytes of a group that is not full
  induction text generalizing input with
  | nil =>
      rw [hnil rfl]
      rfl
  | cons c rest ih =>
      have hlen : (input ++ [c]).length = input.length + 1 := by
        rw [List.length_append, List.length_singleton]
      rw [authLoop]
      by_cases hgroup : (input ++ [c]).length = 3 ∨ rest = []
      · rw [if_pos hgroup, b64Encode_eq _ _ (by omega), ih [] (by decide) fun _ => rfl,
          List.nil_append]
        -- whole groups are encoded apart, and the last one ends the text
        rcases hgroup with hthree | hend
        · rw [← Base64.encode_append _ _ (by rw [hthree]), List.append_assoc,
            List.singleton_append]
        · rw [hend]
          simp [Base64.encode]
      · rw [not_or] at hgroup
        rw [if_neg (not_or.2 hgroup), ih _ (by omega) fun h => absurd h hgroup.2,
          List.append_assoc, List.singleton_append]

/-- The characters of bytes. -/
def chars (bytes : List UInt8) : Http.Text :=
  bytes.map fun b => Char.ofNat b.toNat

theorem toNat_ofNat_byte : ∀ n : Fin 256, (Char.ofNat n).toNat = n := by
  decide +kernel

theorem toNat_char (b : UInt8) : (Char.ofNat b.toNat).toNat = b.toNat :=
  toNat_ofNat_byte ⟨b.toNat, b.toNat_lt⟩

theorem base64EncodeValue_digit : ∀ v : Fin 64,
    Http.base64EncodeValue v = Char.ofNat (Base64.digit v).toNat := by
  decide +kernel

theorem base64EncodeValue_eq {v : Nat} (hv : v < 64) :
    Http.base64EncodeValue v = Char.ofNat (Base64.digit v).toNat :=
  base64EncodeValue_digit ⟨v, hv⟩

/-- The encoding that `HTTPClient` keeps is the same. -/
theorem base64Encode_chars (bytes : List UInt8) :
    Http.base64Encode (chars bytes) = chars (Base64.encode bytes) := by
  -- induction on the groups of three; the two encoders mask where the values fit already
  induction bytes using Base64.encode.induct with
  | case1 => rfl
  | case2 a =>
      have ha := a.toNat_lt
      have hfirst : a.toNat / 4 % 64 = a.toNat / 4 := Nat.mod_eq_of_lt (Base64.first_lt a)
      have hsecond : a.toNat % 4 * 16 < 64 := by omega
      change Http.base64Encode [Char.ofNat a.toNat] = _
      rw [Http.base64Encode, toNat_char, hfirst, base64EncodeValue_eq (Base64.first_lt a),
        base64EncodeValue_eq hsecond]
      rfl
  | case3 a b =>
      have hb := b.toNat_lt
      have hfirst : a.toNat / 4 % 64 = a.toNat / 4 := Nat.mod_eq_of_lt (Base64.first_lt a)
      have hhigh : b.toNat / 16 % 16 = b.toNat / 16 := Nat.mod_eq_of_lt (by omega)
      have hthird : b.toNat % 16 * 4 < 64 := by omega
      change Http.base64Encode [Char.ofNat a.toNat, Char.ofNat b.toNat] = _
      rw [Http.base64Encode, toNat_char, toNat_char, hfirst, hhigh,
        base64EncodeValue_eq (Base64.first_lt a), base64EncodeValue_eq (Base64.second_lt a b),
        base64EncodeValue_eq hthird]
      rfl
  | case4 a b c rest ih =>
      have hb := b.toNat_lt
      have hc := c.toNat_lt
      have hfirst : a.toNat / 4 % 64 = a.toNat / 4 := Nat.mod_eq_of_lt (Base64.first_lt a)
      have hhigh : b.toNat / 16 % 16 = b.toNat / 16 := Nat.mod_eq_of_lt (by omega)
      have htop : c.toNat / 64 % 4 = c.toNat / 64 := Nat.mod_eq_of_lt (by omega)
      change Http.base64Encode
        (Char.ofNat a.toNat :: Char.ofNat b.toNat :: Char.ofNat c.toNat :: chars rest) = _
      rw [Http.base64Encode, toNat_char, toNat_char, toNat_char, hfirst, hhigh, htop, ih,
        base64EncodeValue_eq (Base64.first_lt a), base64EncodeValue_eq (Base64.second_lt a b),
        base64EncodeValue_eq (Base64.third_lt b c),
        base64EncodeValue_eq (Nat.mod_lt c.toNat (by decide))]
      rfl

/-- Both clients send the same credential, and it reads back as the user and the password. -/
theorem credentials_agree (aUser aPassword : List UInt8) :
    ∃ code, sendBasicAuth aUser aPassword = ascii "Authorization: Basic " ++ code ++ [13, 10] ∧
      Core.Base64Encoder.encode true (aUser ++ 58 :: aPassword) = code ∧
      Http.base64Encode (chars (aUser ++ 58 :: aPassword)) = chars code ∧
      Base64.decode code = some (aUser ++ 58 :: aPassword) := by
  refine ⟨Base64.encode (aUser ++ 58 :: aPassword), ?_, ?_, base64Encode_chars _,
    Base64.decode_encode _⟩
  · rw [sendBasicAuth, authLoop_eq _ [] (by decide) fun _ => rfl, List.nil_append]
  · rw [Core.Base64Encoder.encode, if_pos rfl, Core.Base64Encoder.encodeBlocks_eq,
      List.flatten_singleton]

end Websocket

end ArduinoBeken
