import ArduinoBeken.Library.ByteOrder

/-!
# Frames of WebSocket

The frames that the two sides of a WebSocket connection send each other, and their bytes: the
kind of the frame, the shortest way to write the length of the payload, the key if there is
one, and the payload with the key over it. A stream is the bytes of its frames one behind the
other, and every frame knows where it ends, so that a reader finds the frames again. Nothing
here is specific to one implementation.

## Main definitions

* `mask`: The payload with the key over it.
* `Frame`, `Frame.encode`: Frames and their bytes.
* `readFrame`, `readFrames`: What a reader makes of bytes.

## Theorems

* `mask_mask`: The key is taken off the way it was put on.
* `readLength_extended`: Lengths are read back.
* `readFrame_encode`, `readFrames_encode`: Frames are read back from their bytes.
-/

namespace WebSocketFrames

open ByteOrder (toBytes ofBytes length_toBytes ofBytes_toBytes)

/-! ### Keys -/

/-- Four bytes that are laid over a payload again and again. -/
abbrev Key := Fin 4 → UInt8

/-- The data with the key over them, of which so many bytes are used up. -/
def mask (key : Key) : Nat → List UInt8 → List UInt8
  | _, [] => []
  | i, b :: data => (b ^^^ key (Fin.ofNat 4 i)) :: mask key (i + 1) data

@[simp] theorem length_mask (key : Key) (i : Nat) (data : List UInt8) :
    (mask key i data).length = data.length := by
  induction data generalizing i with
  | nil => rfl
  | cons b data ih => rw [mask, List.length_cons, List.length_cons, ih]

/-- The key is taken off the way it was put on. -/
@[simp] theorem mask_mask (key : Key) (i : Nat) (data : List UInt8) :
    mask key i (mask key i data) = data := by
  induction data generalizing i with
  | nil => rfl
  | cons b data ih =>
      rw [mask, mask, ih, UInt8.xor_assoc, UInt8.xor_self, UInt8.xor_zero]

/-! ### Lengths -/

/-- What the second byte of a frame says of a length. -/
def shortLength (n : Nat) : Nat :=
  if n < 126 then n else if n < 65536 then 126 else 127

/-- The bytes of a length that follow the second byte. -/
def extended (n : Nat) : List UInt8 :=
  if n < 126 then [] else if n < 65536 then (toBytes 2 n).reverse else (toBytes 8 n).reverse

/-- A length of so many bytes, which would not fit fewer. -/
def readWide (count least most : Nat) (bytes : List UInt8) : Option (Nat × List UInt8) :=
  let n := ofBytes (bytes.take count).reverse
  if count ≤ bytes.length ∧ least ≤ n ∧ n < most then some (n, bytes.drop count) else none

/-- The length that is meant by what the second byte says, and what follows it. -/
def readLength (short : Nat) (bytes : List UInt8) : Option (Nat × List UInt8) :=
  if short < 126 then some (short, bytes)
  else if short = 126 then readWide 2 126 65536 bytes
  else readWide 8 65536 (2 ^ 63) bytes

theorem shortLength_lt (n : Nat) : shortLength n < 128 := by
  unfold shortLength
  split_ifs <;> omega

theorem readWide_toBytes (count least most n : Nat) (rest : List UInt8) (hleast : least ≤ n)
    (hmost : n < most) (hfits : n < 256 ^ count) :
    readWide count least most ((toBytes count n).reverse ++ rest) = some (n, rest) := by
  have hlen : (toBytes count n).reverse.length = count := by
    rw [List.length_reverse, length_toBytes]
  have hvalue : ofBytes (((toBytes count n).reverse ++ rest).take count).reverse = n := by
    rw [List.take_left' hlen, List.reverse_reverse, ofBytes_toBytes count n hfits]
  have hle : count ≤ ((toBytes count n).reverse ++ rest).length := by
    rw [List.length_append, hlen]
    exact Nat.le_add_right _ _
  unfold readWide
  rw [hvalue, if_pos ⟨hle, hleast, hmost⟩, List.drop_left' hlen]

/-- Lengths are read back. -/
theorem readLength_extended (n : Nat) (rest : List UInt8) (h : n < 2 ^ 63) :
    readLength (shortLength n) (extended n ++ rest) = some (n, rest) := by
  unfold shortLength extended readLength
  by_cases hshort : n < 126
  · rw [if_pos hshort, if_pos hshort, if_pos hshort, List.nil_append]
  · rw [if_neg hshort, if_neg hshort]
    by_cases hword : n < 65536
    · rw [if_pos hword, if_pos hword, if_neg (by decide), if_pos rfl]
      exact readWide_toBytes 2 126 65536 n rest (Nat.le_of_not_lt hshort) hword hword
    · rw [if_neg hword, if_neg hword, if_neg (by decide), if_neg (by decide)]
      exact readWide_toBytes 8 65536 (2 ^ 63) n rest (Nat.le_of_not_lt hword) h
        (h.trans (by decide))

/-! ### Frames -/

/-- The last part of a message or one before it, what kind of message it is a part of, the key,
and what the part says. -/
structure Frame where
  fin : Bool
  opcode : Fin 16
  key : Option Key
  payload : List UInt8

/-- The payload as it is sent, behind its key. -/
def covered : Option Key → List UInt8 → List UInt8
  | none, payload => payload
  | some key, payload => key 0 :: key 1 :: key 2 :: key 3 :: mask key 0 payload

/-- A bit above the others. -/
def flag (b : Bool) : Nat := if b then 128 else 0

/-- The bytes of a frame. -/
def Frame.encode (f : Frame) : List UInt8 :=
  UInt8.ofNat (flag f.fin + f.opcode) ::
    UInt8.ofNat (flag f.key.isSome + shortLength f.payload.length) ::
      (extended f.payload.length ++ covered f.key f.payload)

/-- The kind of frame that the low four bits stand for. -/
def kind (bits : Nat) : Fin 16 := Fin.ofNat 16 bits

/-- The key and the payload of a frame, and what follows it. -/
def readCovered (masked : Bool) (n : Nat) (bytes : List UInt8) :
    Option ((Option Key × List UInt8) × List UInt8) :=
  if masked then
    match bytes with
    | k0 :: k1 :: k2 :: k3 :: bytes =>
      if n ≤ bytes.length then
        some ((some ![k0, k1, k2, k3], mask ![k0, k1, k2, k3] 0 (bytes.take n)), bytes.drop n)
      else none
    | _ => none
  else if n ≤ bytes.length then some ((none, bytes.take n), bytes.drop n)
  else none

/-- The frame that bytes begin with, and what follows it. The reserved bits of the first byte
must not be set. -/
def readFrame : List UInt8 → Option (Frame × List UInt8)
  | first :: second :: rest =>
    if first.toNat / 16 % 8 = 0 then do
      let (n, rest) ← readLength (second.toNat % 128) rest
      let ((key, payload), rest) ← readCovered (decide (128 ≤ second.toNat)) n rest
      return (⟨decide (128 ≤ first.toNat), kind first.toNat, key, payload⟩, rest)
    else none
  | _ => none

/-- The frames that bytes are, of which there are at most `k`. -/
def readFrames : Nat → List UInt8 → Option (List Frame)
  | _, [] => some []
  | 0, _ :: _ => none
  | k + 1, b :: bytes => do
    let (f, rest) ← readFrame (b :: bytes)
    return f :: (← readFrames k rest)

theorem flag_le (b : Bool) : flag b = 0 ∨ flag b = 128 := by
  cases b
  · exact Or.inl rfl
  · exact Or.inr rfl

theorem le_flag_iff (b : Bool) (n : Nat) (h : n < 128) : decide (128 ≤ flag b + n) = b := by
  cases b
  · exact decide_eq_false (by rw [flag, if_neg Bool.false_ne_true]; omega)
  · exact decide_eq_true (by rw [flag, if_pos rfl]; omega)

theorem readCovered_covered (key : Option Key) (payload rest : List UInt8) :
    readCovered key.isSome payload.length (covered key payload ++ rest) =
      some ((key, payload), rest) := by
  cases key with
  | none =>
      have hle : payload.length ≤ (payload ++ rest).length := by
        rw [List.length_append]
        exact Nat.le_add_right _ _
      change (if payload.length ≤ (payload ++ rest).length then
        some ((none, (payload ++ rest).take payload.length),
          (payload ++ rest).drop payload.length)
        else none) = _
      rw [if_pos hle, List.take_left' rfl, List.drop_left' rfl]
  | some key =>
      -- the key is read byte by byte
      have hkey : ![key 0, key 1, key 2, key 3] = key := by
        funext i
        fin_cases i <;> rfl
      have hlen : (mask key 0 payload).length = payload.length := length_mask key 0 payload
      have hle : payload.length ≤ (mask key 0 payload ++ rest).length := by
        rw [List.length_append, hlen]
        exact Nat.le_add_right _ _
      change (if payload.length ≤ (mask key 0 payload ++ rest).length then
        some ((some ![key 0, key 1, key 2, key 3], mask ![key 0, key 1, key 2, key 3] 0
          ((mask key 0 payload ++ rest).take payload.length)),
          (mask key 0 payload ++ rest).drop payload.length)
        else none) = _
      rw [if_pos hle, hkey, List.take_left' hlen, List.drop_left' hlen, mask_mask]

/-- A frame is read back from its bytes. -/
theorem readFrame_encode (f : Frame) (rest : List UInt8) (h : f.payload.length < 2 ^ 63) :
    readFrame (f.encode ++ rest) = some (f, rest) := by
  obtain ⟨fin, opcode, key, payload⟩ := f
  have hop : opcode.val < 16 := opcode.isLt
  have hshort := shortLength_lt payload.length
  have hfin := flag_le fin
  have hmasked := flag_le key.isSome
  -- flags and lengths share a byte without overlapping
  have hfirst : (UInt8.ofNat (flag fin + opcode)).toNat = flag fin + opcode := by
    rw [UInt8.toNat_ofNat']
    omega
  have hsecond : (UInt8.ofNat (flag key.isSome + shortLength payload.length)).toNat =
      flag key.isSome + shortLength payload.length := by
    rw [UInt8.toNat_ofNat']
    omega
  have hlow : (flag key.isSome + shortLength payload.length) % 128 =
      shortLength payload.length := by
    omega
  have hopcode : kind (flag fin + opcode) = opcode := by
    apply Fin.ext
    change (flag fin + opcode) % 16 = opcode
    omega
  rw [Frame.encode, List.cons_append, List.cons_append, List.append_assoc, readFrame, hfirst,
    hsecond, if_pos (by omega), hlow, le_flag_iff _ _ hshort, le_flag_iff _ _ (by omega),
    hopcode]
  rw [readLength_extended _ _ h]
  change (readCovered key.isSome payload.length (covered key payload ++ rest) >>= _) = _
  rw [readCovered_covered]
  rfl

/-- Frames are read back from their bytes. -/
theorem readFrames_encode (fs : List Frame) (h : ∀ f ∈ fs, f.payload.length < 2 ^ 63) (k : Nat)
    (hk : fs.length ≤ k) : readFrames k (fs.flatMap Frame.encode) = some fs := by
  -- each turn reads one frame
  induction fs generalizing k with
  | nil => rw [List.flatMap_nil, readFrames]
  | cons f fs ih =>
      obtain ⟨k, rfl⟩ := Nat.exists_eq_add_of_le' (show 1 ≤ k from (Nat.succ_le_succ
        (Nat.zero_le fs.length)).trans hk)
      have hrest := ih (fun g hg => h g (List.mem_cons_of_mem f hg)) k
        (Nat.le_of_succ_le_succ hk)
      have hread := readFrame_encode f (fs.flatMap Frame.encode) (h f List.mem_cons_self)
      rw [List.flatMap_cons]
      rw [Frame.encode, List.cons_append] at hread ⊢
      rw [readFrames, hread]
      change (readFrames k (fs.flatMap Frame.encode) >>= fun fs => some (f :: fs)) = _
      rw [hrest]
      rfl

/-- Every frame takes some bytes. -/
theorem length_le_flatMap (fs : List Frame) : fs.length ≤ (fs.flatMap Frame.encode).length := by
  induction fs with
  | nil => exact Nat.le_refl 0
  | cons f fs ih =>
      have hpos : 0 < f.encode.length := Nat.succ_pos _
      rw [List.flatMap_cons, List.length_append, List.length_cons]
      omega

end WebSocketFrames
