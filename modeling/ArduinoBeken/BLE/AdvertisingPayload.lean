import ArduinoBeken.Library.LengthFields
import ArduinoBeken.BLE.LocalDevice
import ArduinoBeken.BLE.Characteristic
import Mathlib.Data.Nat.Digits.Defs
import Mathlib.Tactic.Ring

/-!
# What is Advertised

The payloads that `advertise` hands to the stack, and the array that the first of them is
put together in. `appendServiceUuidField` has a parser of its own for the text of a UUID,
which reads pairs of digits from the end; the database has another one (`parseUuid16`). Both
the UUID and the manufacturer data are checked against the room that is left, and what does
not fit ends the call. A local name that does not fit is passed over: there is no scan
response then, and the call goes on.

## Main definitions

* `AdvBuffer`: The array with what was written to it.
* `advBuffer`, `scanRspBuffer`: The arrays of one call.
* `advertiseHands`: The payloads that a call hands to the stack.
* `Configured`: The fields that were asked for.
* `AdvFits`, `NameFits`: What was asked for fits.
* `PayloadLaw`: What is handed over is what was asked for.
* `PassesNameOver`: Without a scan response the call goes on.

## Theorems

* `uuidBytes_eq`: The loop over the digits reads pairs from the end.
* `ofDigits_hexPairs`: These are the number of the UUID.
* `advData_configured`: The fields of a payload.
* `advData_none_iff`: When there is none.
* `filled_advBuffer`: The array holds the payload, and no place beyond it is written to.
* `payloads_decode`: The law, with a local name that does not fit left out.
-/

namespace ArduinoBeken

namespace BLE

open LengthFields (Field decode encodeAll)

/-! ## The array -/

/-- `adv_data` with `adv_len`, and the places that were written to. -/
structure AdvBuffer where
  bytes : List UInt8 := List.replicate bleMaxAdvDataLen 0
  len : Nat := 0
  written : List Nat := []

/-- `adv_data[adv_len++] = byte`. -/
def AdvBuffer.put (b : AdvBuffer) (byte : UInt8) : AdvBuffer where
  bytes := b.bytes.set b.len byte
  len := b.len + 1
  written := b.written ++ [b.len]

/-- `memcpy` to `adv_data + adv_len`, and the length added. -/
def AdvBuffer.putAll (b : AdvBuffer) (bytes : List UInt8) : AdvBuffer :=
  bytes.foldl AdvBuffer.put b

/-- The bytes that are handed over. -/
def AdvBuffer.payload (b : AdvBuffer) : List UInt8 :=
  b.bytes.take b.len

/-- The digits of a UUID text, up to its end. -/
def uuidHex (uuid : List UInt8) : List UInt8 :=
  ((uuid.takeWhile (· != 0)).filter isXDigit).map toLowerByte

/-- `uuid_len`, by the number of digits. -/
def uuidLength (hex : List UInt8) : Option Nat :=
  if hex.length = 4 then some 2 else if hex.length = 32 then some 16 else none

/-- `strtoul` with base 16, of lower-case digits. -/
def strtoulHex (src : List UInt8) : Nat :=
  src.foldl (fun n c => n * 16 + (nibble c).toNat) 0

/-- `src_index` of a turn. -/
def srcIndex (hex : List UInt8) (i : Nat) : Nat :=
  hex.length - (i + 1) * 2

/-- The loop that fills `uuid_bytes`. -/
def uuidBytes (hex : List UInt8) (uuidLen : Nat) : List UInt8 :=
  (List.range uuidLen).map fun i =>
    UInt8.ofNat (strtoulHex ((hex.drop (srcIndex hex i)).take 2))

/-- `appendServiceUuidField`, on the array. -/
def putServiceUuidField (uuid : List UInt8) (b : AdvBuffer) (capacity : Nat) :
    Bool × AdvBuffer :=
  if uuid.length = 0 then (true, b)
  else
    let hex := uuidHex uuid
    match uuidLength hex with
    | none => (false, b)
    | some len =>
        let adType : UInt8 := if len = 2 then 0x03 else 0x07
        if b.len + len + 2 > capacity then (false, b)
        else
          (true, ((b.put (UInt8.ofNat (len + 1))).put adType).putAll (uuidBytes hex len))

/-- The part of `advertise` that fills `adv_data`, on the array: whether it goes on, and
    what was written. -/
def LocalDevice.advBuffer (d : LocalDevice) : Bool × AdvBuffer :=
  let flags := ((({} : AdvBuffer).put 0x02).put 0x01).put 0x06
  match putServiceUuidField d.serviceUuid flags bleMaxAdvDataLen with
  | (false, b) => (false, b)
  | (true, b) =>
      if d.manufacturerData = [] then (true, b)
      else if d.manufacturerData.length + 2 + b.len > bleMaxAdvDataLen then (false, b)
      else
        (true, ((b.put (UInt8.ofNat (d.manufacturerData.length + 1))).put 0xFF).putAll
          d.manufacturerData)

/-- The part that fills `scan_rsp`, if it is reached and the name fits. -/
def LocalDevice.scanRspBuffer (d : LocalDevice) : Option AdvBuffer :=
  if d.localName.length ≠ 0 ∧ d.localName.length + 2 ≤ bleMaxAdvDataLen then
    some (((({} : AdvBuffer).put (UInt8.ofNat (d.localName.length + 1))).put 0x09).putAll
      d.localName)
  else none

/-- The payload is in the array, and no place beyond the array was written to. -/
structure AdvBuffer.Filled (b : AdvBuffer) (adv : List UInt8) : Prop where
  size : b.bytes.length = bleMaxAdvDataLen
  len : b.len = adv.length
  payload : b.payload = adv
  inRange : ∀ i ∈ b.written, i < bleMaxAdvDataLen

namespace AdvBuffer

/-- A new buffer holds nothing. -/
theorem filled_nil : Filled {} [] :=
  ⟨List.length_replicate, rfl, rfl, fun _ hi => absurd hi List.not_mem_nil⟩

/-- A byte with room is put behind what the buffer holds. -/
theorem filled_put {b : AdvBuffer} {adv : List UInt8} (h : b.Filled adv) (byte : UInt8)
    (hroom : adv.length < bleMaxAdvDataLen) : (b.put byte).Filled (adv ++ [byte]) := by
  have hlt : b.len < b.bytes.length := by
    rw [h.len, h.size]
    exact hroom
  refine ⟨?_, ?_, ?_, fun i hi => ?_⟩
  · rw [put, List.length_set]
    exact h.size
  · rw [put, List.length_append, List.length_singleton, h.len]
  · have hset : b.len < (b.bytes.set b.len byte).length := by
      rw [List.length_set]
      exact hlt
    simp only [AdvBuffer.payload, put]
    rw [List.take_succ_eq_append_getElem hset, List.take_set_of_le (Nat.le_refl _),
      List.getElem_set_self]
    exact congrArg (· ++ [byte]) h.payload
  · rcases List.mem_append.1 hi with hold | hnew
    · exact h.inRange i hold
    · rw [List.mem_singleton.1 hnew, h.len]
      exact hroom

/-- Bytes with room are put behind what the buffer holds. -/
theorem filled_putAll {b : AdvBuffer} {adv : List UInt8} (h : b.Filled adv)
    (bytes : List UInt8) (hroom : adv.length + bytes.length ≤ bleMaxAdvDataLen) :
    (b.putAll bytes).Filled (adv ++ bytes) := by
  induction bytes generalizing b adv with
  | nil =>
      rw [List.append_nil]
      exact h
  | cons byte bytes ih =>
      rw [List.length_cons] at hroom
      have hput := filled_put h byte (by omega)
      have hall := ih hput (by
        rw [List.length_append, List.length_singleton]
        omega)
      rw [List.append_assoc] at hall
      exact hall

/-- A field is put into the array: its length, its kind, and its data. -/
theorem filled_field {b : AdvBuffer} {adv : List UInt8} (h : b.Filled adv) (len kind : UInt8)
    (data : List UInt8) (hroom : adv.length + data.length + 2 ≤ bleMaxAdvDataLen) :
    (((b.put len).put kind).putAll data).Filled (adv ++ [len, kind] ++ data) := by
  have hlen := filled_put h len (by omega)
  have hkind := filled_put hlen kind (by
    rw [List.length_append, List.length_singleton]
    omega)
  have hall := filled_putAll hkind data (by
    simp only [List.length_append, List.length_singleton]
    omega)
  rw [List.append_assoc adv] at hall
  exact hall

end AdvBuffer

/-! ## The digits of a UUID -/

/-- The character of a byte. -/
def byteChar (b : UInt8) : Char := Char.ofNat b.toNat

/-- A UUID text as the database reads it. -/
def uuidText (uuid : List UInt8) : List Char :=
  (uuid.takeWhile (· != 0)).map byteChar

/-- The number that a UUID text stands for. -/
def uuidNumber (uuid : List Char) : Nat :=
  (normalizeUuidHex uuid).foldl (fun n ch => n * 16 + hexDigitValue ch) 0

/-- Both parsers see the same characters. -/
theorem isHexDigit_byteChar (b : UInt8) : isHexDigit (byteChar b) = isXDigit b := by
  have hall : ∀ n < 256, isHexDigit (byteChar (UInt8.ofNat n)) = isXDigit (UInt8.ofNat n) := by
    decide +kernel
  have hb := hall b.toNat b.toNat_lt
  rwa [UInt8.ofNat_toNat] at hb

/-- What a digit becomes, and what it counts. -/
theorem digit_byteChar (b : UInt8) (h : isXDigit b = true) :
    (byteChar b).toLower = byteChar (toLowerByte b) ∧
      hexDigitValue (byteChar (toLowerByte b)) = (nibble (toLowerByte b)).toNat ∧
      (nibble (toLowerByte b)).toNat < 16 := by
  have hall : ∀ n < 256, isXDigit (UInt8.ofNat n) = true →
      (byteChar (UInt8.ofNat n)).toLower = byteChar (toLowerByte (UInt8.ofNat n)) ∧
        hexDigitValue (byteChar (toLowerByte (UInt8.ofNat n))) =
          (nibble (toLowerByte (UInt8.ofNat n))).toNat ∧
        (nibble (toLowerByte (UInt8.ofNat n))).toNat < 16 := by
    decide +kernel
  have hb := hall b.toNat b.toNat_lt
  rw [UInt8.ofNat_toNat] at hb
  exact hb h

/-- Lower-case digits, with their values. -/
def Digits (hex : List UInt8) : Prop :=
  ∀ c ∈ hex, (nibble c).toNat < 16 ∧ hexDigitValue (byteChar c) = (nibble c).toNat

/-- The hexadecimal text of a UUID has only digits. -/
theorem digits_uuidHex (uuid : List UInt8) : Digits (uuidHex uuid) := by
  intro c hc
  rcases List.mem_map.1 hc with ⟨b, hb, rfl⟩
  have hdigit := digit_byteChar b (List.mem_filter.1 hb).2
  exact ⟨hdigit.2.2, hdigit.2.1⟩

/-- The digits are those of the parser for the database. -/
theorem normalizeUuidHex_uuidText (uuid : List UInt8) :
    normalizeUuidHex (uuidText uuid) = (uuidHex uuid).map byteChar := by
  have hfilter : ∀ bs : List UInt8, (bs.map byteChar).filter isHexDigit =
      (bs.filter isXDigit).map byteChar := by
    intro bs
    rw [List.filter_map]
    refine congrArg (List.map byteChar) (List.filter_congr fun b _ => ?_)
    exact isHexDigit_byteChar b
  rw [normalizeUuidHex, uuidText, uuidHex, hfilter, List.map_map, List.map_map]
  refine List.map_congr_left fun b hb => ?_
  exact (digit_byteChar b (List.mem_filter.1 hb).2).1

/-- Their number is the same, too. -/
theorem uuidNumber_uuidText (uuid : List UInt8) :
    uuidNumber (uuidText uuid) = strtoulHex (uuidHex uuid) := by
  have hfold : ∀ (hex : List UInt8), Digits hex → ∀ n,
      (hex.map byteChar).foldl (fun n ch => n * 16 + hexDigitValue ch) n =
        hex.foldl (fun n c => n * 16 + (nibble c).toNat) n := by
    intro hex
    induction hex with
    | nil => exact fun _ _ => rfl
    | cons c hex ih =>
        intro h n
        rw [List.map_cons, List.foldl_cons, List.foldl_cons, (h c List.mem_cons_self).2]
        exact ih (fun c' hc' => h c' (List.mem_cons_of_mem c hc')) _
  rw [uuidNumber, normalizeUuidHex_uuidText]
  exact hfold _ (digits_uuidHex uuid) 0

/-! ## The bytes of a UUID -/

/-- Two digits make a byte. -/
theorem length_hexPairs (n : Nat) : ∀ hex : List UInt8, hex.length = 2 * n →
    (hexPairs hex).length = n := by
  induction n with
  | zero =>
      intro hex h
      rw [List.length_eq_zero_iff.1 h]
      rfl
  | succ n ih =>
      intro hex h
      match hex, h with
      | hi :: lo :: rest, h =>
          rw [hexPairs, List.length_cons, ih rest]
          simp only [List.length_cons] at h
          omega

/-- The byte of two digits. -/
theorem toNat_pair {hi lo : UInt8} (hhi : (nibble hi).toNat < 16) (hlo : (nibble lo).toNat < 16) :
    (nibble hi * 16 + nibble lo).toNat = (nibble hi).toNat * 16 + (nibble lo).toNat := by
  have h16 : (16 : UInt8).toNat = 16 := rfl
  rw [UInt8.toNat_add, UInt8.toNat_mul, h16]
  omega

/-- The pairs of digits, the last one first, are the number. -/
theorem ofDigits_hexPairs (n : Nat) : ∀ (hex : List UInt8) (acc : Nat), hex.length = 2 * n →
    Digits hex →
    hex.foldl (fun n c => n * 16 + (nibble c).toNat) acc =
      Nat.ofDigits 256 ((hexPairs hex).reverse.map UInt8.toNat) + 256 ^ n * acc := by
  induction n with
  | zero =>
      intro hex acc h _
      rw [List.length_eq_zero_iff.1 h, pow_zero, one_mul]
      exact (Nat.zero_add acc).symm
  | succ n ih =>
      intro hex acc h hdigits
      match hex, h with
      | hi :: lo :: rest, h =>
          have hlen : rest.length = 2 * n := by
            simp only [List.length_cons] at h
            omega
          -- the first two digits are the first byte, which the others stand below
          have hbyte := toNat_pair (hdigits hi List.mem_cons_self).1
            (hdigits lo (List.mem_cons_of_mem _ List.mem_cons_self)).1
          have hrest := ih rest ((acc * 16 + (nibble hi).toNat) * 16 + (nibble lo).toNat) hlen
            fun c hc => hdigits c (List.mem_cons_of_mem _ (List.mem_cons_of_mem _ hc))
          rw [List.foldl_cons, List.foldl_cons, hrest, hexPairs, List.reverse_cons,
            List.map_append, Nat.ofDigits_append, List.length_map, List.length_reverse,
            length_hexPairs n rest hlen, List.map_singleton, Nat.ofDigits_singleton, hbyte,
            pow_succ]
          ring

/-- The loop reads pairs of digits from the end. -/
theorem uuidBytes_eq (n : Nat) : ∀ hex : List UInt8, hex.length = 2 * n → Digits hex →
    uuidBytes hex n = (hexPairs hex).reverse := by
  induction n with
  | zero =>
      intro hex h _
      rw [List.length_eq_zero_iff.1 h]
      rfl
  | succ n ih =>
      intro hex h hdigits
      match hex, h with
      | hi :: lo :: rest, h =>
          have hlen : rest.length = 2 * n := by
            simp only [List.length_cons] at h
            omega
          -- By induction on the pairs of digits: the first pair is the last one read.
          have hhi := (hdigits hi List.mem_cons_self).1
          have hlo := (hdigits lo (List.mem_cons_of_mem _ List.mem_cons_self)).1
          have hrest := ih rest hlen
            fun c hc => hdigits c (List.mem_cons_of_mem _ (List.mem_cons_of_mem _ hc))
          rw [hexPairs, List.reverse_cons, ← hrest, uuidBytes, uuidBytes, List.range_succ,
            List.map_append, List.map_singleton]
          refine congrArg₂ (· ++ ·) (List.map_congr_left fun i hi' => ?_) ?_
          · -- the two digits in front do not count from the end
            have hi'' := List.mem_range.1 hi'
            have hsrc : srcIndex (hi :: lo :: rest) i = srcIndex rest i + 2 := by
              simp only [srcIndex, List.length_cons]
              omega
            rw [hsrc]
            rfl
          -- the pair in front is the last byte, and its two digits are read together
          · have hsrc : srcIndex (hi :: lo :: rest) n = 0 := by
              simp only [srcIndex, List.length_cons]
              omega
            rw [hsrc]
            refine congrArg (fun b => [b]) (UInt8.toNat_inj.1 ?_)
            rw [toNat_pair hhi hlo, UInt8.toNat_ofNat']
            simp only [strtoulHex, List.drop_zero, List.take_succ_cons, List.take_zero,
              List.foldl_cons, List.foldl_nil, Nat.zero_mul, Nat.zero_add]
            omega

/-! ## The fields -/

/-- The field of a UUID, little-endian. That of a short one has the number that the database
    has. -/
inductive UuidField (uuid : List Char) : Field → Prop
  | short (data : List UInt8) (hlen : data.length = 2)
      (hnumber : parseUuid16 uuid = some (Nat.ofDigits 256 (data.map UInt8.toNat))) :
      UuidField uuid ⟨0x03, data⟩
  | long (data : List UInt8) (hlen : data.length = 16)
      (hdigits : (normalizeUuidHex uuid).length = 32)
      (hnumber : uuidNumber uuid = Nat.ofDigits 256 (data.map UInt8.toNat)) :
      UuidField uuid ⟨0x07, data⟩

/-- The fields that were asked for: the flags, the UUID if there is one, and the
    manufacturer data if there are any. -/
def LocalDevice.Configured (d : LocalDevice) (fields : List Field) : Prop :=
  ∃ uuid manufacturer, fields = ⟨0x01, [0x06]⟩ :: (uuid ++ manufacturer) ∧
    (d.serviceUuid = [] → uuid = []) ∧
    (d.serviceUuid ≠ [] → ∃ f, uuid = [f] ∧ UuidField (uuidText d.serviceUuid) f) ∧
    manufacturer = if d.manufacturerData = [] then [] else [⟨0xFF, d.manufacturerData⟩]

/-- The room that a UUID takes, with length and kind, if it is one. -/
def uuidRoom (uuid : List UInt8) : Option Nat :=
  if uuid = [] then some 0
  else if (normalizeUuidHex (uuidText uuid)).length = 4 then some 4
  else if (normalizeUuidHex (uuidText uuid)).length = 32 then some 18
  else none

/-- The flags, the UUID and the manufacturer data have room together. -/
def LocalDevice.AdvFits (d : LocalDevice) : Prop :=
  ∃ room, uuidRoom d.serviceUuid = some room ∧
    3 + room + (if d.manufacturerData = [] then 0 else d.manufacturerData.length + 2) ≤
      bleMaxAdvDataLen

/-- The local name has room in a scan response. -/
def LocalDevice.NameFits (d : LocalDevice) : Prop :=
  d.localName.length + 2 ≤ bleMaxAdvDataLen

/-- Normalising a UUID's text keeps its digits. -/
theorem length_normalizeUuidHex (uuid : List UInt8) :
    (normalizeUuidHex (uuidText uuid)).length = (uuidHex uuid).length := by
  rw [normalizeUuidHex_uuidText, List.length_map]

/-- The digits of a UUID are a field, by their number. -/
theorem uuidField_of_length {uuid : List UInt8} {n : Nat}
    (h : uuidLength (uuidHex uuid) = some n) :
    UuidField (uuidText uuid)
      ⟨if n = 2 then 0x03 else 0x07, (hexPairs (uuidHex uuid)).reverse⟩ := by
  -- The digits have one number, read from the front or from the back.
  have hnumber : ∀ m, (uuidHex uuid).length = 2 * m → uuidNumber (uuidText uuid) =
      Nat.ofDigits 256 ((hexPairs (uuidHex uuid)).reverse.map UInt8.toNat) := by
    intro m hm
    rw [uuidNumber_uuidText]
    exact ofDigits_hexPairs m _ 0 hm (digits_uuidHex uuid)
  unfold uuidLength at h
  split_ifs at h with hshort hlong
  · obtain rfl := Option.some.inj h
    have hlen : (hexPairs (uuidHex uuid)).reverse.length = 2 := by
      rw [List.length_reverse]
      exact length_hexPairs 2 _ hshort
    refine .short _ hlen ?_
    -- sixteen bits are enough for four digits
    have hlt : Nat.ofDigits 256 ((hexPairs (uuidHex uuid)).reverse.map UInt8.toNat) < 256 ^ 2 := by
      have hbound := Nat.ofDigits_lt_base_pow_length (by decide : 1 < 256)
        (l := (hexPairs (uuidHex uuid)).reverse.map UInt8.toNat) fun x hx => by
          rcases List.mem_map.1 hx with ⟨b, -, rfl⟩
          exact b.toNat_lt
      rwa [List.length_map, hlen] at hbound
    simp only [parseUuid16, length_normalizeUuidHex, hshort, ne_eq, not_true_eq_false, if_false]
    refine congrArg some ?_
    rw [← hnumber 2 hshort] at hlt ⊢
    exact Nat.mod_eq_of_lt hlt
  · obtain rfl := Option.some.inj h
    refine .long _ ?_ ?_ (hnumber 16 hlong)
    · rw [List.length_reverse]
      exact length_hexPairs 16 _ hlong
    · rw [length_normalizeUuidHex]
      exact hlong

/-- What `appendServiceUuidField` comes to. -/
inductive Appended (uuid adv : List UInt8) (capacity : Nat) : Option (List UInt8) → Prop
  | absent (habsent : uuid = []) : Appended uuid adv capacity (some adv)
  | malformed (hmalformed : uuidRoom uuid = none) : Appended uuid adv capacity none
  | full (room : Nat) (hroom : uuidRoom uuid = some room)
      (hfull : capacity < adv.length + room) : Appended uuid adv capacity none
  | field (f : Field) (huuid : uuid ≠ []) (hfield : UuidField (uuidText uuid) f)
      (hroom : uuidRoom uuid = some f.encode.length) (hshort : f.Short)
      (hfits : adv.length + f.encode.length ≤ capacity) :
      Appended uuid adv capacity (some (adv ++ f.encode))

/-- A field takes two bytes more than its data. -/
theorem length_encode (f : Field) : f.encode.length = f.data.length + 2 := rfl

/-- The room a UUID's field takes, by its kind. -/
theorem uuidRoom_of_length {uuid : List UInt8} (huuid : uuid ≠ []) :
    uuidRoom uuid = (uuidLength (uuidHex uuid)).map (· + 2) := by
  rw [uuidRoom, if_neg huuid, length_normalizeUuidHex, uuidLength]
  split_ifs <;> rfl

/-- `appendServiceUuidField` of a text that is not empty. -/
theorem appendServiceUuidField_eq {uuid : List UInt8} (huuid : uuid ≠ []) (adv : List UInt8)
    (capacity : Nat) :
    appendServiceUuidField uuid adv capacity =
      match uuidLength (uuidHex uuid) with
      | none => none
      | some len =>
          if adv.length + len + 2 > capacity then none
          else some (adv ++ [UInt8.ofNat (len + 1), if len = 2 then 0x03 else 0x07] ++
            (hexPairs (uuidHex uuid)).reverse) :=
  if_neg fun h => huuid (List.length_eq_zero_iff.1 h)

/-- There is a byte for two digits. -/
theorem length_of_uuidLength {hex : List UInt8} {n : Nat} (h : uuidLength hex = some n) :
    hex.length = 2 * n ∧ n ≤ 16 := by
  unfold uuidLength at h
  split_ifs at h with hshort hlong
  · obtain rfl := Option.some.inj h
    exact ⟨hshort, by decide⟩
  · obtain rfl := Option.some.inj h
    exact ⟨hlong, Nat.le_refl _⟩

/-- Appending a UUID's field appends it whole or not at all. -/
theorem appended (uuid adv : List UInt8) (capacity : Nat) :
    Appended uuid adv capacity (appendServiceUuidField uuid adv capacity) := by
  by_cases huuid : uuid = []
  · rw [appendServiceUuidField, if_pos (List.length_eq_zero_iff.2 huuid)]
    exact .absent huuid
  · have hroom := uuidRoom_of_length huuid
    rw [appendServiceUuidField_eq huuid]
    -- The cases are those of the code: no known length, no room, and the field itself.
    cases hlen : uuidLength (uuidHex uuid) with
    | none =>
        rw [hlen] at hroom
        exact .malformed hroom
    | some n =>
        rw [hlen] at hroom
        simp only
        have hfield := uuidField_of_length hlen
        have hn := length_of_uuidLength hlen
        have hdata : (hexPairs (uuidHex uuid)).reverse.length = n := by
          rw [List.length_reverse]
          exact length_hexPairs n _ hn.1
        by_cases hfull : adv.length + n + 2 > capacity
        · rw [if_pos hfull]
          exact .full (n + 2) hroom hfull
        · rw [if_neg hfull, List.append_assoc]
          -- The two bytes in front of the value are the header of a field.
          have hencode : [UInt8.ofNat (n + 1), if n = 2 then 0x03 else 0x07] ++
              (hexPairs (uuidHex uuid)).reverse = Field.encode
                ⟨if n = 2 then 0x03 else 0x07, (hexPairs (uuidHex uuid)).reverse⟩ := by
            rw [Field.encode, hdata]
            rfl
          rw [hencode]
          refine .field _ huuid hfield ?_ ?_ ?_
          · rw [hroom, length_encode, hdata]
            rfl
          · rw [Field.Short, hdata]
            omega
          · rw [length_encode, hdata]
            omega

/-- The flags: general discoverable, and no classic Bluetooth. -/
def flagsField : Field := ⟨0x01, [0x06]⟩

theorem encode_flagsField : flagsField.encode = [0x02, 0x01, 0x06] := rfl

/-- The flags' field fits a length byte. -/
theorem short_flagsField : flagsField.Short := by
  unfold Field.Short
  decide

/-- The flags and the UUID, if they have room. -/
theorem start_configured {uuid start : List UInt8}
    (h : appendServiceUuidField uuid [0x02, 0x01, 0x06] bleMaxAdvDataLen = some start) :
    ∃ fields, start = encodeAll (flagsField :: fields) ∧ (∀ f ∈ fields, f.Short) ∧
      start.length ≤ bleMaxAdvDataLen ∧ (uuid = [] → fields = []) ∧
      (uuid ≠ [] → ∃ f, fields = [f] ∧ UuidField (uuidText uuid) f) := by
  have happended := appended uuid [0x02, 0x01, 0x06] bleMaxAdvDataLen
  rw [h] at happended
  cases happended with
  | absent habsent =>
      exact ⟨[], rfl, fun f hf => absurd hf List.not_mem_nil, by decide, fun _ => rfl,
        fun hne => absurd habsent hne⟩
  | field f hne hfield hroom hshort hfits =>
      refine ⟨[f], ?_, fun g hg => List.mem_singleton.1 hg ▸ hshort, ?_,
        fun hnil => absurd hnil hne, fun _ => ⟨f, rfl, hfield⟩⟩
      · rw [LengthFields.encodeAll_cons, LengthFields.encodeAll_singleton, encode_flagsField]
      · rw [List.length_append]
        exact hfits

/-- A payload is the bytes of the fields that were asked for. -/
theorem advData_configured {d : LocalDevice} {adv : List UInt8} (h : d.advData = some adv) :
    adv.length ≤ bleMaxAdvDataLen ∧
      ∃ fields, decode adv = some fields ∧ d.Configured fields := by
  unfold LocalDevice.advData at h
  cases hstart : appendServiceUuidField d.serviceUuid [0x02, 0x01, 0x06] bleMaxAdvDataLen with
  | none =>
      rw [hstart] at h
      exact absurd h (Option.some_ne_none adv).symm
  | some start =>
      rcases start_configured hstart with ⟨uuid, rfl, hshort, hlen, hnil, hfield⟩
      simp only [hstart] at h
      -- without manufacturer data the payload is complete here
      split_ifs at h with hnone hfull
      · obtain rfl := Option.some.inj h
        refine ⟨hlen, _, LengthFields.decode_encodeAll _ fun f hf => ?_, uuid, [], ?_, hnil,
          hfield, ?_⟩
        · rcases List.mem_cons.1 hf with rfl | hf
          · exact short_flagsField
          · exact hshort f hf
        · rw [List.append_nil]
          rfl
        · rw [if_pos hnone]
      · -- the manufacturer data are a field of their own
        obtain rfl := Option.some.inj h
        rw [gt_iff_lt, not_lt] at hfull
        have hencode : encodeAll (flagsField :: uuid) ++
            [UInt8.ofNat (d.manufacturerData.length + 1), 0xFF] ++ d.manufacturerData =
            encodeAll (flagsField :: (uuid ++ [⟨0xFF, d.manufacturerData⟩])) := by
          rw [← List.cons_append, LengthFields.encodeAll_append,
            LengthFields.encodeAll_singleton, List.append_assoc]
          rfl
        rw [hencode]
        refine ⟨?_, _, LengthFields.decode_encodeAll _ fun f hf => ?_, uuid,
          [⟨0xFF, d.manufacturerData⟩], rfl, hnil, hfield, ?_⟩
        · rw [← hencode, List.length_append, List.length_append]
          simp only [List.length_cons, List.length_nil]
          omega
        -- the length byte holds it, as the whole payload is short
        · have hdata : d.manufacturerData.length < 255 := by
            unfold bleMaxAdvDataLen at hfull
            omega
          rcases List.mem_cons.1 hf with rfl | hf
          · exact short_flagsField
          rcases List.mem_append.1 hf with hf | hf
          · exact hshort f hf
          · rw [List.mem_singleton.1 hf]
            exact hdata
        · rw [if_neg hnone]

/-- There is no payload if and only if what was asked for has no room. -/
theorem advData_none_iff (d : LocalDevice) : d.advData = none ↔ ¬ d.AdvFits := by
  have happended := appended d.serviceUuid [0x02, 0x01, 0x06] bleMaxAdvDataLen
  unfold LocalDevice.advData LocalDevice.AdvFits
  -- with so much room taken, the rest is a matter of the manufacturer data
  have hrest : ∀ (start : List UInt8) (room : Nat), start.length = 3 + room →
      uuidRoom d.serviceUuid = some room → start.length ≤ bleMaxAdvDataLen →
      ((if d.manufacturerData = [] then some start
        else if d.manufacturerData.length + 2 + start.length > bleMaxAdvDataLen then none
        else some (start ++ [UInt8.ofNat (d.manufacturerData.length + 1), 0xFF] ++
          d.manufacturerData)) = none ↔
        ¬ ∃ room, uuidRoom d.serviceUuid = some room ∧
          3 + room + (if d.manufacturerData = [] then 0 else d.manufacturerData.length + 2) ≤
            bleMaxAdvDataLen) := by
    intro start room hlen hroom hfits
    have hone : (∃ r, uuidRoom d.serviceUuid = some r ∧
        3 + r + (if d.manufacturerData = [] then 0 else d.manufacturerData.length + 2) ≤
          bleMaxAdvDataLen) ↔
        3 + room + (if d.manufacturerData = [] then 0 else d.manufacturerData.length + 2) ≤
          bleMaxAdvDataLen := by
      rw [hroom]
      simp only [Option.some.injEq, exists_eq_left']
    rw [hone]
    -- no data, too much data, data that fit
    split_ifs with hnone hfull
    · exact iff_of_false not_false (by omega)
    · exact iff_of_true rfl (by omega)
    · exact iff_of_false not_false (by omega)
  generalize appendServiceUuidField d.serviceUuid [0x02, 0x01, 0x06] bleMaxAdvDataLen = res at *
  cases happended with
  -- no field, a text that is no UUID, a field that does not fit, one that does
  | absent habsent =>
      exact hrest [0x02, 0x01, 0x06] 0 rfl (if_pos habsent) (by decide)
  | malformed hmalformed =>
      refine iff_of_true rfl ?_
      rintro ⟨room, hroom, -⟩
      exact absurd (hroom.symm.trans hmalformed) (Option.some_ne_none room)
  | full room hroom hfull =>
      refine iff_of_true rfl ?_
      rintro ⟨room', hroom', hfits⟩
      obtain rfl := Option.some.inj (hroom.symm.trans hroom')
      simp only [List.length_cons, List.length_nil] at hfull
      omega
  | field f hne hfield hroom hshort hfits =>
      refine hrest _ f.encode.length ?_ hroom ?_
      · rw [List.length_append]
        rfl
      · rw [List.length_append]
        exact hfits

/-- The scan response is the bytes of the local name as a field. -/
theorem scanResponse_configured {d : LocalDevice} {rsp : List UInt8}
    (h : d.scanResponse = some rsp) :
    rsp.length ≤ bleMaxAdvDataLen ∧ decode rsp = some [⟨0x09, d.localName⟩] := by
  unfold LocalDevice.scanResponse at h
  split_ifs at h with hfits
  obtain rfl := Option.some.inj h
  have hname : d.localName.length < 255 := by
    unfold bleMaxAdvDataLen at hfits
    omega
  have hshort : Field.Short ⟨0x09, d.localName⟩ := hname
  have hdecode := LengthFields.decode_encodeAll [⟨0x09, d.localName⟩]
    fun f hf => List.mem_singleton.1 hf ▸ hshort
  rw [LengthFields.encodeAll_singleton] at hdecode
  refine ⟨?_, hdecode⟩
  rw [List.length_append]
  simp only [List.length_cons, List.length_nil]
  omega

/-! ## The places that are written to -/

/-- The array after `putServiceUuidField`, next to the list model. -/
theorem filled_uuid (uuid : List UInt8) {adv : List UInt8} {b : AdvBuffer} (h : b.Filled adv) :
    (∀ adv', appendServiceUuidField uuid adv bleMaxAdvDataLen = some adv' →
      (putServiceUuidField uuid b bleMaxAdvDataLen).1 = true ∧
        (putServiceUuidField uuid b bleMaxAdvDataLen).2.Filled adv') ∧
    (appendServiceUuidField uuid adv bleMaxAdvDataLen = none →
      putServiceUuidField uuid b bleMaxAdvDataLen = (false, b)) := by
  by_cases huuid : uuid = []
  · have h0 := List.length_eq_zero_iff.2 huuid
    rw [putServiceUuidField, if_pos h0, appendServiceUuidField, if_pos h0]
    refine ⟨fun adv' hadv => ⟨rfl, Option.some.inj hadv ▸ h⟩, fun hnone => ?_⟩
    exact absurd hnone (Option.some_ne_none adv)
  · rw [putServiceUuidField, if_neg fun h0 => huuid (List.length_eq_zero_iff.1 h0),
      appendServiceUuidField_eq huuid]
    simp only
    cases hlen : uuidLength (uuidHex uuid) with
    | none => exact ⟨fun adv' hadv => absurd hadv (Option.some_ne_none adv').symm, fun _ => rfl⟩
    | some n =>
        simp only [h.len]
        by_cases hfull : adv.length + n + 2 > bleMaxAdvDataLen
        · rw [if_pos hfull, if_pos hfull]
          exact ⟨fun adv' hadv => absurd hadv (Option.some_ne_none adv').symm, fun _ => rfl⟩
        · rw [if_neg hfull, if_neg hfull]
          refine ⟨fun adv' hadv => ⟨rfl, ?_⟩, fun hnone => absurd hnone (Option.some_ne_none _)⟩
          -- `putServiceUuidField` reverses as it decodes, and writes the same bytes.
          have hbytes := uuidBytes_eq n _ (length_of_uuidLength hlen).1 (digits_uuidHex uuid)
          have hn : (uuidBytes (uuidHex uuid) n).length = n := by
            rw [uuidBytes, List.length_map, List.length_range]
          obtain rfl := Option.some.inj hadv
          rw [← hbytes]
          exact AdvBuffer.filled_field h _ _ _ (by rw [hn]; omega)

/-- What was written before the call ends or goes on. -/
theorem filled_advBuffer (d : LocalDevice) :
    (d.advBuffer.1 = true ↔ d.advData ≠ none) ∧
      (∀ adv, d.advData = some adv → d.advBuffer.2.payload = adv) ∧
      ∀ i ∈ d.advBuffer.2.written, i < bleMaxAdvDataLen := by
  have hflags : ((({} : AdvBuffer).put 0x02).put 0x01 |>.put 0x06).Filled [0x02, 0x01, 0x06] := by
    have h := AdvBuffer.filled_putAll AdvBuffer.filled_nil [0x02, 0x01, 0x06] (by decide)
    exact h
  -- The array follows the list: flags, then the UUID, then the manufacturer data.
  have huuid := filled_uuid d.serviceUuid hflags
  unfold LocalDevice.advBuffer LocalDevice.advData
  cases hstart : appendServiceUuidField d.serviceUuid [0x02, 0x01, 0x06] bleMaxAdvDataLen with
  | none =>
      simp only [huuid.2 hstart]
      refine ⟨iff_of_false Bool.false_ne_true fun h => h rfl, fun adv h => ?_, hflags.inRange⟩
      exact absurd h (Option.some_ne_none adv).symm
  | some start =>
      rcases huuid.1 start hstart with ⟨htrue, hfilled⟩
      -- From here on the array behind the UUID matters only by what fills it.
      have hpair : putServiceUuidField d.serviceUuid
          (((({} : AdvBuffer).put 0x02).put 0x01).put 0x06) bleMaxAdvDataLen =
          (true, (putServiceUuidField d.serviceUuid
            (((({} : AdvBuffer).put 0x02).put 0x01).put 0x06) bleMaxAdvDataLen).2) :=
        Prod.ext htrue rfl
      generalize (putServiceUuidField d.serviceUuid
        (((({} : AdvBuffer).put 0x02).put 0x01).put 0x06) bleMaxAdvDataLen).2 = b at *
      simp only [hpair, hfilled.len]
      by_cases hnone : d.manufacturerData = []
      · rw [if_pos hnone, if_pos hnone]
        exact ⟨iff_of_true rfl (Option.some_ne_none _),
          fun adv h => hfilled.payload.trans (Option.some.inj h), hfilled.inRange⟩
      · rw [if_neg hnone, if_neg hnone]
        by_cases hfull : d.manufacturerData.length + 2 + start.length > bleMaxAdvDataLen
        · rw [if_pos hfull, if_pos hfull]
          refine ⟨iff_of_false Bool.false_ne_true fun h => h rfl, fun adv h => ?_,
            hfilled.inRange⟩
          exact absurd h (Option.some_ne_none adv).symm
        · rw [if_neg hfull, if_neg hfull]
          have hall := AdvBuffer.filled_field hfilled
            (UInt8.ofNat (d.manufacturerData.length + 1)) 0xFF d.manufacturerData (by omega)
          exact ⟨iff_of_true rfl (Option.some_ne_none _),
            fun adv h => hall.payload.trans (Option.some.inj h), hall.inRange⟩

/-- The array of the scan response, where there is one. -/
theorem filled_scanRspBuffer (d : LocalDevice) {b : AdvBuffer} (h : d.scanRspBuffer = some b) :
    d.scanResponse = some b.payload ∧ ∀ i ∈ b.written, i < bleMaxAdvDataLen := by
  unfold LocalDevice.scanRspBuffer at h
  split_ifs at h with hfits
  obtain rfl := Option.some.inj h
  have hfilled := AdvBuffer.filled_field AdvBuffer.filled_nil
    (UInt8.ofNat (d.localName.length + 1)) 0x09 d.localName (by
      rw [List.length_nil, Nat.zero_add]
      exact hfits.2)
  refine ⟨?_, hfilled.inRange⟩
  rw [LocalDevice.scanResponse, if_pos hfits, hfilled.payload]
  rfl

/-! ## What is handed over -/

/-- The payloads that `advertisePayloads` hands to the stack, in order. -/
def advertisePayloadsHands (answers : AdvertiseAnswers) (c : DeviceCall) :
    List (BleCmd × List UInt8) :=
  if answers.setDevName ≠ c.device.effectiveDeviceName.length % 256 then []
  else
    match c.device.advData with
    | none => []
    | some payload =>
        if payload.length > bleMaxAdvDataLen then []
        else
          (.setAdvData, payload) ::
            match setAdvertisingPayload payload answers.setAdvData c with
            | (false, _) => []
            | (true, c) =>
                match c.device.scanResponse with
                | none => []
                | some response =>
                    if response.length > bleMaxAdvDataLen then []
                    else [(.setRspData, response)]

/-- The payloads that `advertise` hands to the stack, in order. -/
def advertiseHands (answers : AdvertiseAnswers) (c : DeviceCall) :
    List (BleCmd × List UInt8) :=
  match ensureInitialized answers.bluetoothInit c with
  | (false, _) => []
  | (true, c) =>
      if !answers.finalized then []
      else
        match ensureActivity answers c with
        | (false, _) => []
        | (true, c) => advertisePayloadsHands answers c

/-- What was configured is not changed on the way. -/
structure SameConfig (d d' : LocalDevice) : Prop where
  localName : d'.localName = d.localName
  deviceName : d'.deviceName = d.deviceName
  serviceUuid : d'.serviceUuid = d.serviceUuid
  manufacturerData : d'.manufacturerData = d.manufacturerData

namespace SameConfig

variable {d d' d'' : LocalDevice}

theorem refl (d : LocalDevice) : SameConfig d d := ⟨rfl, rfl, rfl, rfl⟩

theorem trans (h : SameConfig d d') (h' : SameConfig d' d'') : SameConfig d d'' :=
  ⟨h'.1.trans h.1, h'.2.trans h.2, h'.3.trans h.3, h'.4.trans h.4⟩

/-- The advertising data depend on the configuration alone. -/
theorem advData (h : SameConfig d d') : d'.advData = d.advData := by
  rw [LocalDevice.advData, h.serviceUuid, h.manufacturerData]
  rfl

/-- The scan response depends on the configuration alone. -/
theorem scanResponse (h : SameConfig d d') : d'.scanResponse = d.scanResponse := by
  rw [LocalDevice.scanResponse, h.localName]
  rfl

end SameConfig

/-- A command leaves the configuration alone. -/
theorem issueCommand_config (cmd : BleCmd) (answer : CmdAnswer) (c : DeviceCall) :
    SameConfig c.device (issueCommand cmd answer c).2.device := by
  unfold issueCommand
  split <;> exact ⟨rfl, rfl, rfl, rfl⟩

/-- Initialising leaves the configuration alone. -/
theorem ensureInitialized_config (bluetoothInit : Bool) (c : DeviceCall) :
    SameConfig c.device (ensureInitialized bluetoothInit c).2.device := by
  unfold ensureInitialized
  split_ifs <;> exact ⟨rfl, rfl, rfl, rfl⟩

/-- Making an activity leaves the configuration alone. -/
theorem ensureActivity_config (answers : AdvertiseAnswers) (c : DeviceCall) :
    SameConfig c.device (ensureActivity answers c).2.device := by
  have hinit := ensureInitialized_config answers.bluetoothInit c
  -- the settings pass through every command, whichever of them is refused
  unfold ensureActivity
  split
  · exact SameConfig.refl _
  · split
    · rename_i c' hc'
      rwa [hc'] at hinit
    · rename_i c' hc'
      rw [hc'] at hinit
      simp only
      split
      · exact hinit.trans ⟨rfl, rfl, rfl, rfl⟩
      · have hactv : SameConfig c'.device { c'.device with actvIdx := answers.idleActv } :=
          ⟨rfl, rfl, rfl, rfl⟩
        have hcreate := issueCommand_config .createAdv answers.create
          { c' with device := { c'.device with actvIdx := answers.idleActv } }
        have hall := hinit.trans (hactv.trans hcreate)
        split
        · rename_i c'' hc''
          rwa [hc''] at hall
        · rename_i c'' hc''
          rw [hc''] at hall
          exact hall.trans ⟨rfl, rfl, rfl, rfl⟩

/-- Handing over the payload leaves the configuration alone. -/
theorem setAdvertisingPayload_config (payload : List UInt8) (answer : CmdAnswer)
    (c : DeviceCall) :
    SameConfig c.device (setAdvertisingPayload payload answer c).2.device := by
  unfold setAdvertisingPayload
  split
  · exact SameConfig.refl _
  · exact issueCommand_config .setAdvData answer c

/-- The payloads of a call are those of the device. -/
theorem mem_advertisePayloadsHands {answers : AdvertiseAnswers} {c : DeviceCall} {cmd : BleCmd}
    {payload : List UInt8} (h : (cmd, payload) ∈ advertisePayloadsHands answers c) :
    (cmd = .setAdvData ∧ c.device.advData = some payload) ∨
      (cmd = .setRspData ∧ c.device.scanResponse = some payload) := by
  unfold advertisePayloadsHands at h
  split_ifs at h
  · exact absurd h List.not_mem_nil
  · split at h
    · exact absurd h List.not_mem_nil
    rename_i adv hadv
    split_ifs at h
    · exact absurd h List.not_mem_nil
    rcases List.mem_cons.1 h with hhead | htail
    · obtain ⟨rfl, rfl⟩ := Prod.mk.inj hhead
      exact Or.inl ⟨rfl, hadv⟩
    -- The second payload is put together behind the first command.
    · have hconfig := setAdvertisingPayload_config adv answers.setAdvData c
      split at htail
      · exact absurd htail List.not_mem_nil
      rename_i c' hc'
      rw [hc'] at hconfig
      split at htail
      · exact absurd htail List.not_mem_nil
      rename_i response hresponse
      split_ifs at htail
      · exact absurd htail List.not_mem_nil
      obtain ⟨rfl, rfl⟩ := Prod.mk.inj (List.mem_singleton.1 htail)
      exact Or.inr ⟨rfl, hconfig.scanResponse ▸ hresponse⟩

/-- A call hands nothing over and fails, or comes to its payloads with what was
    configured. -/
theorem advertise_reaches (answers : AdvertiseAnswers) (c : DeviceCall) :
    (advertiseHands answers c = [] ∧ (advertise answers c).1 = false) ∨
      ∃ c', SameConfig c.device c'.device ∧
        advertiseHands answers c = advertisePayloadsHands answers c' ∧
        advertise answers c = advertisePayloads answers c' := by
  have hinit := ensureInitialized_config answers.bluetoothInit c
  unfold advertiseHands advertise
  generalize ensureInitialized answers.bluetoothInit c = res at hinit ⊢
  rcases res with ⟨_ | _, c'⟩
  · exact Or.inl ⟨rfl, rfl⟩
  · simp only at hinit ⊢
    by_cases hfinal : (!answers.finalized) = true
    · rw [if_pos hfinal, if_pos hfinal]
      exact Or.inl ⟨rfl, rfl⟩
    · rw [if_neg hfinal, if_neg hfinal]
      have hactivity := ensureActivity_config answers c'
      generalize ensureActivity answers c' = res at hactivity ⊢
      rcases res with ⟨_ | _, c''⟩
      · exact Or.inl ⟨rfl, rfl⟩
      · exact Or.inr ⟨c'', hinit.trans hactivity, rfl, rfl⟩

/-- What is handed over is one of the two payloads. -/
theorem mem_advertiseHands {answers : AdvertiseAnswers} {d : LocalDevice} {cmd : BleCmd}
    {payload : List UInt8} (h : (cmd, payload) ∈ advertiseHands answers { device := d }) :
    (cmd = .setAdvData ∧ d.advData = some payload) ∨
      (cmd = .setRspData ∧ d.scanResponse = some payload) := by
  rcases advertise_reaches answers { device := d } with ⟨hnil, -⟩ | ⟨c', hconfig, hhands, -⟩
  · rw [hnil] at h
    exact absurd h List.not_mem_nil
  · rw [hhands] at h
    exact (mem_advertisePayloadsHands h).imp (And.imp_right (hconfig.advData ▸ ·))
      (And.imp_right (hconfig.scanResponse ▸ ·))

/-- Without a payload a call fails. -/
theorem advertise_of_none {answers : AdvertiseAnswers} {d : LocalDevice} (h : d.advData = none) :
    (advertise answers { device := d }).1 = false := by
  rcases advertise_reaches answers { device := d } with ⟨-, hfalse⟩ | ⟨c', hconfig, -, heq⟩
  · exact hfalse
  · rw [heq, advertisePayloads, hconfig.advData.trans h]
    split_ifs <;> rfl

/-! ## The law -/

/-- What is handed over are the bytes of the fields that were asked for, put together within
    the arrays. If what was asked for does not fit, the result is zero, and no advertising
    payload was handed over. -/
structure PayloadLaw (fits : Prop) (answers : AdvertiseAnswers) (d : LocalDevice) : Prop where
  adv : ∀ payload, (.setAdvData, payload) ∈ advertiseHands answers { device := d } →
    payload = d.advBuffer.2.payload ∧ payload.length ≤ bleMaxAdvDataLen ∧
      ∃ fields, decode payload = some fields ∧ d.Configured fields
  rsp : ∀ payload, (.setRspData, payload) ∈ advertiseHands answers { device := d } →
    payload.length ≤ bleMaxAdvDataLen ∧ decode payload = some [⟨0x09, d.localName⟩]
  written : (∀ i ∈ d.advBuffer.2.written, i < bleMaxAdvDataLen) ∧
    ∀ b ∈ d.scanRspBuffer, ∀ i ∈ b.written, i < bleMaxAdvDataLen
  read : ∀ n ∈ uuidLength (uuidHex d.serviceUuid), ∀ i < n,
    i < 16 ∧ srcIndex (uuidHex d.serviceUuid) i + 2 + i * 2 = (uuidHex d.serviceUuid).length
  unfit : ¬ fits → (advertise answers { device := d }).1 = false ∧
    ∀ payload, (.setAdvData, payload) ∉ advertiseHands answers { device := d }

/-- There is no scan response, and behind an advertising payload that was set the call goes
    on to its start: `c` is the call where the payload is handed over. -/
structure PassesNameOver (answers : AdvertiseAnswers) (d : LocalDevice) : Prop where
  rsp : ∀ payload, (.setRspData, payload) ∉ advertiseHands answers { device := d }
  goes_on : ∀ payload, (.setAdvData, payload) ∈ advertiseHands answers { device := d } →
    ∃ c, SameConfig d c.device ∧ advertise answers { device := d } =
      if (setAdvertisingPayload payload answers.setAdvData c).1 then
        startAdvertising answers.start (setAdvertisingPayload payload answers.setAdvData c).2
      else (false, (setAdvertisingPayload payload answers.setAdvData c).2)

/-- Without a scan response the start is next to the advertising payload. -/
theorem advertisePayloads_of_no_response {answers : AdvertiseAnswers} {c : DeviceCall}
    {payload : List UInt8} (hadv : (BleCmd.setAdvData, payload) ∈ advertisePayloadsHands answers c)
    (hnone : c.device.scanResponse = none) :
    advertisePayloads answers c =
      if (setAdvertisingPayload payload answers.setAdvData c).1 then
        startAdvertising answers.start (setAdvertisingPayload payload answers.setAdvData c).2
      else (false, (setAdvertisingPayload payload answers.setAdvData c).2) := by
  have hpayload : c.device.advData = some payload :=
    (mem_advertisePayloadsHands hadv).elim And.right fun hrsp => absurd hrsp.1 (by decide)
  have hname : ¬ answers.setDevName ≠ c.device.effectiveDeviceName.length % 256 := fun hne => by
    rw [advertisePayloadsHands, if_pos hne] at hadv
    exact absurd hadv List.not_mem_nil
  have hresponse : (setAdvertisingPayload payload answers.setAdvData c).2.device.scanResponse =
      none := (setAdvertisingPayload_config payload answers.setAdvData c).scanResponse.trans hnone
  rw [advertisePayloads, if_neg hname, hpayload]
  simp only
  generalize setAdvertisingPayload payload answers.setAdvData c = res at hresponse ⊢
  rcases res with ⟨_ | _, c'⟩
  · rfl
  · simp only at hresponse ⊢
    rw [hresponse]
    rfl

/-- The law holds where the local name is not asked to fit. One that does not is passed
    over. -/
theorem payloads_decode (answers : AdvertiseAnswers) (d : LocalDevice) :
    PayloadLaw d.AdvFits answers d ∧ (¬ d.NameFits → PassesNameOver answers d) := by
  have hadv : ∀ payload, (BleCmd.setAdvData, payload) ∈ advertiseHands answers { device := d } →
      d.advData = some payload := fun payload h =>
    (mem_advertiseHands h).elim And.right fun hrsp => absurd hrsp.1 (by decide)
  have hrsp : ∀ payload, (BleCmd.setRspData, payload) ∈ advertiseHands answers { device := d } →
      d.scanResponse = some payload := fun payload h =>
    (mem_advertiseHands h).elim (fun hadv => absurd hadv.1 (by decide)) And.right
  -- What is handed over is what the device makes of its configuration, to the byte.
  have hbuffer := filled_advBuffer d
  refine ⟨⟨fun payload h => ?_, fun payload h => ?_, ⟨hbuffer.2.2, fun b hb => ?_⟩,
    fun n hn i hi => ?_, fun hunfit => ?_⟩, fun hname => ?_⟩
  · exact ⟨(hbuffer.2.1 payload (hadv payload h)).symm, advData_configured (hadv payload h)⟩
  · exact scanResponse_configured (hrsp payload h)
  · exact (filled_scanRspBuffer d hb).2
  -- The loop reads two digits at a time, and there are two for each byte.
  · have hlen := length_of_uuidLength hn
    unfold srcIndex
    omega
  · have hnone := (advData_none_iff d).2 hunfit
    refine ⟨advertise_of_none hnone, fun payload h => ?_⟩
    exact absurd ((hadv payload h).symm.trans hnone) (Option.some_ne_none payload)
  · have hresponse : d.scanResponse = none := by
      unfold LocalDevice.scanResponse
      -- There is a scan response only if the name has room.
      exact if_neg fun hfits => hname hfits.2
    refine ⟨fun payload h => ?_, fun payload h => ?_⟩
    · exact absurd ((hrsp payload h).symm.trans hresponse) (Option.some_ne_none payload)
    · rcases advertise_reaches answers { device := d } with ⟨hnil, -⟩ | ⟨c, hconfig, hhands, heq⟩
      · rw [hnil] at h
        exact absurd h List.not_mem_nil
      · rw [hhands] at h
        exact ⟨c, hconfig, heq.trans
          (advertisePayloads_of_no_response h (hconfig.scanResponse.trans hresponse))⟩

/-- Each command is carried out, and its callback comes at once. -/
def carriedOut (nameLen : Nat) : AdvertiseAnswers where
  bluetoothInit := true
  finalized := true
  idleActv := 0
  create := ⟨true, LocalDevice.promptWindow ⟨0, .createAdv, some bleSuccess⟩⟩
  setDevName := nameLen
  setAdvData := ⟨true, LocalDevice.promptWindow ⟨1, .setAdvData, some bleSuccess⟩⟩
  setRspData := ⟨true, LocalDevice.promptWindow ⟨2, .setRspData, some bleSuccess⟩⟩
  start := ⟨true, LocalDevice.promptWindow ⟨2, .startAdv, some bleSuccess⟩⟩

/-- A device whose local name has a byte too many. -/
def longName : LocalDevice where
  localName := List.replicate 30 65

/-- It advertises all the same, and hands no name over. -/
theorem long_name_passed_over :
    ¬ PayloadLaw (longName.AdvFits ∧ longName.NameFits) (carriedOut 30) longName := by
  intro h
  have hunfit : ¬ (longName.AdvFits ∧ longName.NameFits) := fun hfits => by
    have hname := hfits.2
    unfold LocalDevice.NameFits at hname
    exact absurd hname (by decide)
  have hfalse := (h.unfit hunfit).1
  have hprompt : ∀ r number cmd, ((LocalDevice.promptWindow ⟨number, cmd, some bleSuccess⟩).await r
      cmd commandTimeoutMs).succeeded = true := fun r number cmd =>
    LocalDevice.prompt_succeeds r ⟨number, cmd, some bleSuccess⟩ rfl
  simp [advertise, carriedOut, longName, ensureInitialized, ensureActivity, unknownActvIdx,
    issueCommand, hprompt, advertisePayloads, LocalDevice.effectiveDeviceName,
    LocalDevice.advData, appendServiceUuidField, setAdvertisingPayload, LocalDevice.scanResponse,
    startAdvertising, bleMaxAdvDataLen] at hfalse

end BLE

end ArduinoBeken
