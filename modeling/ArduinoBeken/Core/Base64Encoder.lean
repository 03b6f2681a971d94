import ArduinoBeken.Library.Base64
import Mathlib

/-!
# The Base64 Encoder of the Core

`cencode.c` encodes a text that comes in blocks of any size: between two blocks it keeps how far
it is in a group of three bytes and the bits it has not written yet, and at the end it pads what
is left. `base64::encode` hands it everything as one block, in a buffer whose size it reckons
before.

However a text is cut into blocks, what is written is the encoding of the whole
(`encodeBlocks_eq`), and the buffer has just the size it takes with its terminator
(`length_encodeBlocks`).

## Main definitions

* `EncodeState`, `encodeBlock`, `encodeBlockend`: The encoder.
* `encodeBlocks`: The blocks of a text, and the end.
* `encode`: `base64::encode`, by whether there is memory.

## Theorems

* `encodeChar_spec`: One byte.
* `encodeBlocks_eq`: The blocks of a text.
-/

namespace ArduinoBeken

namespace Core

namespace Base64Encoder

/-- Where the encoder is among three bytes. -/
inductive Step where
  | stepA
  | stepB
  | stepC
deriving DecidableEq, Repr

/-- `base64_encodestate`. -/
structure EncodeState where
  step : Step := .stepA
  result : UInt8 := 0
deriving DecidableEq, Repr

/-- The digits. -/
def encoding : List Char :=
  "ABCDEFGHIJKLMNOPQRSTUVWXYZabcdefghijklmnopqrstuvwxyz0123456789+/".toList

/-- `base64_encode_value`. -/
def encodeValue (value_in : UInt8) : UInt8 :=
  if 63 < value_in then 61
  else ((encoding[value_in.toNat]?).map fun c => UInt8.ofNat c.toNat).getD 0

/-- What one byte of a block writes, and the state after it. -/
def encodeChar (state : EncodeState) (fragment : UInt8) : List UInt8 × EncodeState :=
  match state.step with
  | .stepA =>
    ([encodeValue ((fragment &&& 0xfc) >>> 2)],
      { step := .stepB, result := (fragment &&& 0x03) <<< 4 })
  | .stepB =>
    ([encodeValue (state.result ||| ((fragment &&& 0xf0) >>> 4))],
      { step := .stepC, result := (fragment &&& 0x0f) <<< 2 })
  | .stepC =>
    ([encodeValue (state.result ||| ((fragment &&& 0xc0) >>> 6)), encodeValue (fragment &&& 0x3f)],
      { step := .stepA, result := fragment &&& 0x3f })

/-- `base64_encode_block`. -/
def encodeBlock (state : EncodeState) : List UInt8 → List UInt8 × EncodeState
  | [] => ([], state)
  | fragment :: plaintext =>
    let r := encodeChar state fragment
    let rest := encodeBlock r.2 plaintext
    (r.1 ++ rest.1, rest.2)

/-- `base64_encode_blockend`, without the terminator. -/
def encodeBlockend (state : EncodeState) : List UInt8 :=
  match state.step with
  | .stepA => []
  | .stepB => [encodeValue state.result, 61, 61]
  | .stepC => [encodeValue state.result, 61]

/-- A text that is handed over in blocks, and the end. -/
def encodeBlocks (state : EncodeState) : List (List UInt8) → List UInt8
  | [] => encodeBlockend state
  | block :: blocks =>
    let r := encodeBlock state block
    r.1 ++ encodeBlocks r.2 blocks

/-- `base64_encode_expected_len`. -/
def expectedLen (n : Nat) : Nat :=
  (4 * n / 3 + 3) / 4 * 4

/-- `base64::encode`, when there is memory for its buffer or not. -/
def encode (memory : Bool) (data : List UInt8) : List UInt8 :=
  if memory then encodeBlocks {} [data] else "-FAIL-".toList.map fun c => UInt8.ofNat c.toNat

/-! ### Bits -/

theorem encodeValue_digit : ∀ v : Fin 64, encodeValue (UInt8.ofNat v) = Base64.digit v := by
  decide +kernel

theorem encodeValue_eq {x : UInt8} {v : Nat} (hx : x.toNat = v) (hv : v < 64) :
    encodeValue x = Base64.digit v := by
  have hval : UInt8.ofNat v = x := by rw [← hx, UInt8.ofNat_toNat]
  rw [← hval]
  exact encodeValue_digit ⟨v, hv⟩

/-- The bits that the masks take, as numbers. -/
theorem masks : ∀ n : Fin 256,
    ((UInt8.ofNat n &&& 0xfc) >>> 2).toNat = n / 4 ∧
      ((UInt8.ofNat n &&& 0x03) <<< 4).toNat = n % 4 * 16 ∧
      ((UInt8.ofNat n &&& 0xf0) >>> 4).toNat = n / 16 ∧
      ((UInt8.ofNat n &&& 0x0f) <<< 2).toNat = n % 16 * 4 ∧
      ((UInt8.ofNat n &&& 0xc0) >>> 6).toNat = n / 64 ∧
      (UInt8.ofNat n &&& 0x3f).toNat = n % 64 := by
  decide +kernel

theorem masks_eq (x : UInt8) :
    ((x &&& 0xfc) >>> 2).toNat = x.toNat / 4 ∧ ((x &&& 0x03) <<< 4).toNat = x.toNat % 4 * 16 ∧
      ((x &&& 0xf0) >>> 4).toNat = x.toNat / 16 ∧ ((x &&& 0x0f) <<< 2).toNat = x.toNat % 16 * 4 ∧
      ((x &&& 0xc0) >>> 6).toNat = x.toNat / 64 ∧ (x &&& 0x3f).toNat = x.toNat % 64 := by
  have h := masks ⟨x.toNat, x.toNat_lt⟩
  rwa [UInt8.ofNat_toNat] at h

/-- Bits above and bits below are put together by an or. -/
theorem or_toNat {x y : UInt8} {k n m : Nat} (hx : x.toNat = n * 2 ^ k) (hy : y.toNat = m)
    (hm : m < 2 ^ k) : (x ||| y).toNat = n * 2 ^ k + m := by
  rw [UInt8.toNat_or, hx, hy, Nat.mul_comm, Nat.two_pow_add_eq_or_of_lt hm]

/-! ### Blocks -/

/-- What is written of the bytes of a group that is not whole. -/
def partialGroup : List UInt8 → List UInt8
  | [a] => [Base64.digit (a.toNat / 4)]
  | [a, b] => [Base64.digit (a.toNat / 4), Base64.digit (a.toNat % 4 * 16 + b.toNat / 16)]
  | _ => []

/-- The state stands for the bytes of a group that is not whole. -/
def Holds (state : EncodeState) : List UInt8 → Prop
  | [] => state.step = .stepA
  | [a] => state.step = .stepB ∧ state.result.toNat = a.toNat % 4 * 16
  | [_, b] => state.step = .stepC ∧ state.result.toNat = b.toNat % 16 * 4
  | _ => False

/-- With the text so far, the encoder has written its whole groups and a part of the next. -/
def Written (text out : List UInt8) (state : EncodeState) : Prop :=
  ∃ groups more, text = groups ++ more ∧ 3 ∣ groups.length ∧
    out = Base64.encode groups ++ partialGroup more ∧ Holds state more

/-- One byte is one byte more that is written. -/
theorem encodeChar_spec {text out : List UInt8} {state : EncodeState} (c : UInt8)
    (h : Written text out state) :
    Written (text ++ [c]) (out ++ (encodeChar state c).1) (encodeChar state c).2 := by
  obtain ⟨groups, more, rfl, hgroups, rfl, hholds⟩ := h
  obtain ⟨hfirst, hlow2, hhigh4, hlow4, hhigh2, hlow6⟩ := masks_eq c
  have hc := c.toNat_lt
  obtain ⟨step, result⟩ := state
  -- by the bytes of the last group that came before this one
  match more, hholds with
  | [], hstep =>
      subst hstep
      refine ⟨groups, [c], by rw [List.append_nil], hgroups, ?_, rfl, hlow2⟩
      change Base64.encode groups ++ [] ++ [encodeValue _] = _
      rw [List.append_nil, encodeValue_eq hfirst (Base64.first_lt c)]
      rfl
  | [a], ⟨hstep, hresult⟩ =>
      subst hstep
      have hor := or_toNat (k := 4) hresult hhigh4 (by omega)
      refine ⟨groups, [a, c], List.append_assoc _ _ _, hgroups, ?_, rfl, hlow4⟩
      rw [List.append_assoc]
      change _ ++ ([Base64.digit (a.toNat / 4)] ++ [encodeValue (result ||| _)]) =
        _ ++ [Base64.digit (a.toNat / 4), Base64.digit (a.toNat % 4 * 16 + c.toNat / 16)]
      rw [encodeValue_eq hor (Base64.second_lt a c)]
      rfl
  | [a, b], ⟨hstep, hresult⟩ =>
      subst hstep
      -- the group is whole, and its encoding ends with the two characters of this byte
      have hor := or_toNat (k := 2) hresult hhigh2 (by omega)
      have hlast : c.toNat % 64 < 64 := Nat.mod_lt _ (by decide)
      refine ⟨groups ++ [a, b, c], [], ?_, ?_, ?_, rfl⟩
      · rw [List.append_nil, List.append_assoc]
        rfl
      · rw [List.length_append]
        exact Nat.dvd_add hgroups (Nat.dvd_refl 3)
      · rw [Base64.encode_append groups _ hgroups, List.append_assoc, List.append_assoc]
        change _ ++ ([Base64.digit (a.toNat / 4),
            Base64.digit (a.toNat % 4 * 16 + b.toNat / 16)] ++
          [encodeValue (result ||| _), encodeValue (c &&& 0x3f)]) = _
        rw [encodeValue_eq hor (Base64.third_lt b c), encodeValue_eq hlow6 hlast]
        rfl

theorem encodeBlock_spec {text out : List UInt8} {state : EncodeState} (block : List UInt8)
    (h : Written text out state) :
    Written (text ++ block) (out ++ (encodeBlock state block).1) (encodeBlock state block).2 := by
  induction block generalizing text out state with
  | nil =>
      rw [encodeBlock, List.append_nil, List.append_nil]
      exact h
  | cons c block ih =>
      have hnext := ih (encodeChar_spec c h)
      rw [List.append_assoc, List.append_assoc] at hnext
      exact hnext

/-- The end completes the encoding of the text. -/
theorem encodeBlockend_spec {text out : List UInt8} {state : EncodeState}
    (h : Written text out state) : out ++ encodeBlockend state = Base64.encode text := by
  obtain ⟨groups, more, rfl, hgroups, rfl, hholds⟩ := h
  rw [Base64.encode_append groups more hgroups, List.append_assoc, encodeBlockend]
  congr 1
  obtain ⟨step, result⟩ := state
  -- by the bytes of the last group, which the padding fills up
  match more, hholds with
  | [], hstep =>
      subst hstep
      rfl
  | [a], ⟨hstep, hresult⟩ =>
      subst hstep
      change [Base64.digit (a.toNat / 4)] ++ [encodeValue result, 61, 61] = _
      rw [encodeValue_eq hresult (by omega)]
      rfl
  | [a, b], ⟨hstep, hresult⟩ =>
      subst hstep
      change [Base64.digit (a.toNat / 4), Base64.digit (a.toNat % 4 * 16 + b.toNat / 16)] ++
        [encodeValue result, 61] = _
      rw [encodeValue_eq hresult (by omega)]
      rfl

/-- However a text is cut into blocks, what is written is its encoding. -/
theorem encodeBlocks_eq (blocks : List (List UInt8)) :
    encodeBlocks {} blocks = Base64.encode blocks.flatten := by
  have h : ∀ (blocks : List (List UInt8)) (text out : List UInt8) (state : EncodeState),
      Written text out state →
        out ++ encodeBlocks state blocks = Base64.encode (text ++ blocks.flatten) := by
    intro blocks
    induction blocks with
    | nil =>
        intro text out state hw
        rw [encodeBlocks, List.flatten_nil, List.append_nil]
        exact encodeBlockend_spec hw
    | cons block blocks ih =>
        intro text out state hw
        rw [encodeBlocks, ← List.append_assoc, ih _ _ _ (encodeBlock_spec block hw),
          List.append_assoc, List.flatten_cons]
  exact h blocks [] [] {} ⟨[], [], rfl, Nat.dvd_zero 3, rfl, rfl⟩

/-- The buffer has the size of what is written, and its terminator has its place. -/
theorem length_encodeBlocks (blocks : List (List UInt8)) :
    (encodeBlocks {} blocks).length = expectedLen blocks.flatten.length := by
  rw [encodeBlocks_eq, Base64.length_encode, expectedLen]
  omega

/-- A text that is handed over in blocks of any size takes the buffer that was reckoned for it,
    is what one block would be, and reads back. -/
theorem encodeBlocks_reads_back (blocks : List (List UInt8)) :
    (encodeBlocks {} blocks).length = expectedLen blocks.flatten.length ∧
      encodeBlocks {} blocks = encode true blocks.flatten ∧
      Base64.decode (encodeBlocks {} blocks) = some blocks.flatten := by
  refine ⟨length_encodeBlocks blocks, ?_, ?_⟩
  · rw [encode, if_pos rfl, encodeBlocks_eq, encodeBlocks_eq, List.flatten_singleton]
  · rw [encodeBlocks_eq, Base64.decode_encode]

end Base64Encoder

end Core

end ArduinoBeken
