import ArduinoBeken.Library.ByteOrder
import ArduinoBeken.Tools.SizeText
import Mathlib.Data.List.DropRight

/-!
# The Table of OTA Partitions

The builder appends the table to the bootloader as the packer of the SDK does, with a
serialiser of its own. An entry has 64 bytes: four numbers, two names of 24 bytes each, and
the CRC-32 of what stands before it. The builder cuts a name that is too long, so that an
entry has its size whatever the table says. The packer does not, and what is cut is lost;
so is a NUL at the end of a name, which looks like the filling.

## Main definitions

* `serializePartitionsTable`: The packer of the SDK.
* `OtaEntry`, `decodeTable`: What a reader of the table finds.
* `OtaFaithful`: The law of a table that is accepted.
* `PlainPart`: A part for which it holds.

## Theorems

* `decodeName_iff`: When a name is read back.
* `serializeOtaPart_ok`: What is known of a part that is accepted.
* `decodeEntry_layout`: An entry is read field by field.
* `sdkPart_eq`: When the packer writes the same entry.
* `ota_table_iff`: When the law holds.
-/

namespace ArduinoBeken

namespace Tools

open ByteOrder (toBytes ofBytes)

/-! ### The packer of the SDK -/

/-- `format_string_to_bytes` of the packer, which fills a name and does not cut it. -/
def sdkFormatStringToBytes (string : List Char) (length : Nat) : List UInt8 :=
  let stringBytes := string.flatMap String.utf8EncodeChar
  if stringBytes.length < length then
    stringBytes ++ List.replicate (length - stringBytes.length) 0
  else stringBytes

/-- The body of the loop of `serialize_partitions_table`. -/
def sdkSerializePart (part : OtaPart) : Except PyError (List UInt8) := do
  let magic ← toBytes4 (← orValueError (pyInt 16 (← field "magic" part.magic)))
  let name := sdkFormatStringToBytes (← field "name" part.name) 24
  let flashName := sdkFormatStringToBytes (← field "flash_name" part.flashName) 24
  let offset ← toBytes4 (← orValueError (pyInt 16 (← field "offset" part.offset)))
  let length ← toBytes4 (← parseFormatSize (← field "len" part.len))
  let partBytes := magic ++ name ++ flashName ++ offset ++ length
  .ok (partBytes ++ (← toBytes4 (crc32 partBytes).toNat))

/-- `serialize_partitions_table`, for a file that is there. -/
def serializePartitionsTable (parts : List OtaPart) : Except PyError (List UInt8) :=
  (parts.mapM sdkSerializePart).map List.flatten

/-! ### Reading a table -/

/-- An entry as it is meant. -/
structure OtaEntry where
  magic : Int
  name : List Char
  flashName : List Char
  offset : Int
  len : Int
deriving DecidableEq, Repr

/-- What a part says, if it is complete. -/
def OtaPart.entry (part : OtaPart) : Option OtaEntry := do
  let magic ← pyInt 16 (← part.magic)
  let name ← part.name
  let flashName ← part.flashName
  let offset ← pyInt 16 (← part.offset)
  let len ← parseSize (← part.len)
  some { magic, name, flashName, offset, len }

/-- A name of fixed width without its filling. -/
def decodeName (bytes : List UInt8) : Option (List Char) :=
  (List.toByteArray (bytes.rdropWhile (· == 0))).utf8Decode?.map Array.toList

/-- An entry as a reader takes it. -/
def decodeEntry (bytes : List UInt8) : Option OtaEntry := do
  let name ← decodeName ((bytes.drop 4).take 24)
  let flashName ← decodeName ((bytes.drop 28).take 24)
  some
    { magic := ofBytes (bytes.take 4)
      name, flashName
      offset := ofBytes ((bytes.drop 52).take 4)
      len := ofBytes ((bytes.drop 56).take 4) }

/-- So many entries of 64 bytes. -/
def decodeTable : Nat → List UInt8 → Option (List OtaEntry)
  | 0, _ => some []
  | n + 1, bytes => do
    let entry ← decodeEntry (bytes.take 64)
    let rest ← decodeTable n (bytes.drop 64)
    some (entry :: rest)

/-- An entry of the table: 64 bytes, the last four the check of the others. -/
def CheckedEntry (bytes : List UInt8) : Prop :=
  bytes.length = 64 ∧ bytes.drop 60 = toBytes 4 (crc32 (bytes.take 60)).toNat

/-- The law of a table that is accepted: entries that check, which read as the parts they
    stand for, and which the packer writes as well. -/
structure OtaFaithful (parts : List OtaPart) (out : List UInt8) : Prop where
  entries : ∃ entries : List (List UInt8), entries.flatten = out ∧
    entries.length = parts.length ∧ ∀ e ∈ entries, CheckedEntry e
  decodes : (decodeTable parts.length out).map (List.map some) = some (parts.map OtaPart.entry)
  same : serializePartitionsTable parts = .ok out

/-- The name fits its field and does not end in NUL. -/
def PlainName (name : List Char) : Prop :=
  (name.flatMap String.utf8EncodeChar).length ≤ 24 ∧ name.getLast? ≠ some (Char.ofNat 0)

/-- Both names fit, and the length has a unit or is in decimal. -/
structure PlainPart (part : OtaPart) : Prop where
  name : ∀ name ∈ part.name, PlainName name
  flashName : ∀ name ∈ part.flashName, PlainName name
  len : ∀ len ∈ part.len, DecimalSize len

/-! ### Names -/

theorem length_formatStringToBytes (value : List Char) (length : Nat) :
    (formatStringToBytes value length).length = length := by
  unfold formatStringToBytes
  simp only
  split_ifs with h
  · rw [List.length_take]
    omega
  · rw [List.length_append, List.length_replicate]
    omega

/-- Bytes are the encoding of the text that they are decoded to, and of no other. -/
theorem utf8Decode_iff (bytes : List UInt8) (text : List Char) :
    (List.toByteArray bytes).utf8Decode?.map Array.toList = some text ↔
      text.flatMap String.utf8EncodeChar = bytes := by
  constructor
  · intro h
    -- decoding and encoding undo each other, by the core library's two lemmas
    rcases Option.map_eq_some_iff.1 h with ⟨chars, hchars, rfl⟩
    have hsome : (List.toByteArray bytes).utf8Decode?.isSome :=
      Option.isSome_iff_exists.2 ⟨chars, hchars⟩
    have hencode := ByteArray.utf8Encode_get_utf8Decode? (h := hsome)
    have hget : (List.toByteArray bytes).utf8Decode?.get hsome = chars := by
      simp only [hchars, Option.get_some]
    rw [hget] at hencode
    have hdata := congrArg (fun b : ByteArray => b.data.toList) hencode
    simpa [List.utf8Encode] using hdata
  · rintro rfl
    have hdecode := List.utf8Decode?_utf8Encode (l := text)
    rw [List.utf8Encode] at hdecode
    rw [hdecode]
    rfl

/-- The last byte of an encoded character is zero for NUL only. -/
theorem utf8EncodeChar_getLast (c : Char) :
    (String.utf8EncodeChar c).getLast? = some 0 ↔ c = Char.ofNat 0 := by
  have hnul : c = Char.ofNat 0 ↔ c.val.toNat = 0 := by
    rw [← Char.toNat_inj]
    rfl
  -- The bytes behind the first one have their highest bit set.
  have htail : ∀ v : Nat, UInt8.ofNat (v % 64 + 128) ≠ 0 := by
    intro v h
    have hv := congrArg UInt8.toNat h
    rw [UInt8.toNat_ofNat'] at hv
    have hzero : (0 : UInt8).toNat = 0 := rfl
    omega
  rw [hnul]
  unfold String.utf8EncodeChar
  simp only
  split_ifs with h1 h2 h3
  · rw [List.getLast?_singleton, Option.some.injEq, ← UInt8.toNat_inj, UInt8.toNat_ofNat']
    have hzero : (0 : UInt8).toNat = 0 := rfl
    omega
  · simp only [List.getLast?_cons_cons, List.getLast?_singleton, Option.some.injEq, htail,
      false_iff]
    omega
  · simp only [List.getLast?_cons_cons, List.getLast?_singleton, Option.some.injEq, htail,
      false_iff]
    omega
  · simp only [List.getLast?_cons_cons, List.getLast?_singleton, Option.some.injEq, htail,
      false_iff]
    omega

theorem flatMap_getLast (text : List Char) :
    (text.flatMap String.utf8EncodeChar).getLast? = some 0 ↔
      text.getLast? = some (Char.ofNat 0) := by
  rcases List.eq_nil_or_concat text with rfl | ⟨front, c, rfl⟩
  · simp
  · have hne : String.utf8EncodeChar c ≠ [] := by
      intro hnil
      have hpos := String.length_utf8EncodeChar c
      rw [hnil] at hpos
      exact absurd hpos.symm (Nat.ne_of_gt (Char.utf8Size_pos c))
    have hlast : [c].flatMap String.utf8EncodeChar = String.utf8EncodeChar c := by
      rw [List.flatMap_cons, List.flatMap_nil, List.append_nil]
    rw [List.concat_eq_append, List.flatMap_append, hlast, List.getLast?_append_of_ne_nil _ hne,
      List.getLast?_concat, utf8EncodeChar_getLast, Option.some.injEq]

/-- The filling is taken off again, and nothing else, if there is no zero before it. -/
theorem rdropWhile_fill (raw : List UInt8) (count : Nat) :
    (raw ++ List.replicate count 0).rdropWhile (· == 0) = raw.rdropWhile (· == 0) := by
  induction count with
  | zero => rw [List.replicate_zero, List.append_nil]
  | succ count ih =>
      rw [List.replicate_succ', ← List.append_assoc, List.rdropWhile_concat_pos _ _ _ rfl, ih]

theorem rdropWhile_eq_iff (raw : List UInt8) :
    raw.rdropWhile (· == 0) = raw ↔ raw.getLast? ≠ some 0 := by
  rw [List.rdropWhile_eq_self_iff]
  rcases List.eq_nil_or_concat raw with rfl | ⟨front, b, rfl⟩
  · simp
  · simp

/-- A name is read back if it fits its field and does not end in NUL. -/
theorem decodeName_iff (name : List Char) :
    decodeName (formatStringToBytes name 24) = some name ↔ PlainName name := by
  rw [decodeName, utf8Decode_iff, PlainName, Ne, ← flatMap_getLast, formatStringToBytes]
  generalize name.flatMap String.utf8EncodeChar = raw
  by_cases hlong : raw.length ≥ 24
  · -- A name that is too long is cut, and read back only if nothing was.
    rw [if_pos hlong]
    constructor
    · intro h
      have hfront := List.rdropWhile_prefix (· == (0 : UInt8)) (raw.take 24)
      rw [← h] at hfront
      have hlen := hfront.length_le
      have htake : raw.take 24 = raw :=
        List.take_of_length_le (hlen.trans (List.length_take_le 24 raw))
      rw [htake] at h
      exact ⟨hlen.trans (List.length_take_le 24 raw), (rdropWhile_eq_iff raw).1 h.symm⟩
    · rintro ⟨hlen, hlast⟩
      rw [List.take_of_length_le hlen]
      exact ((rdropWhile_eq_iff raw).2 hlast).symm
  · -- A shorter one is filled up.
    rw [if_neg hlong, rdropWhile_fill]
    constructor
    · intro h
      exact ⟨by omega, (rdropWhile_eq_iff raw).1 h.symm⟩
    · rintro ⟨-, hlast⟩
      exact ((rdropWhile_eq_iff raw).2 hlast).symm

/-- The packer writes a name like the builder if it fits. -/
theorem sdkFormat_eq (name : List Char)
    (h : (name.flatMap String.utf8EncodeChar).length ≤ 24) :
    sdkFormatStringToBytes name 24 = formatStringToBytes name 24 := by
  unfold sdkFormatStringToBytes formatStringToBytes
  generalize name.flatMap String.utf8EncodeChar = raw at h
  simp only
  by_cases hlong : raw.length ≥ 24
  · rw [if_neg (Nat.not_lt.2 hlong), if_pos hlong, List.take_of_length_le h]
  · rw [if_pos (Nat.lt_of_not_le hlong), if_neg hlong]

/-! ### Entries -/

theorem toBytes4_ok (value : Int) (bytes : List UInt8) (h : toBytes4 value = .ok bytes) :
    bytes.length = 4 ∧ (ofBytes bytes : Int) = value := by
  unfold toBytes4 at h
  split_ifs at h with hrange
  rw [not_or, Int.not_lt, Int.not_le] at hrange
  have hbytes : bytes = toBytes 4 value.toNat := by
    cases h
    simp only [toBytes, Nat.div_div_eq_div_mul, Nat.reducePow, Nat.reduceMul]
  have hlt : value.toNat < 256 ^ 4 := by omega
  rw [hbytes, ByteOrder.length_toBytes, ByteOrder.ofBytes_toBytes 4 _ hlt,
    Int.toNat_of_nonneg hrange.1]
  exact ⟨rfl, rfl⟩

/-- The check of an entry always fits its four bytes. -/
theorem toBytes4_crc32 (bytes : List UInt8) :
    toBytes4 (crc32 bytes).toNat = .ok (toBytes 4 (crc32 bytes).toNat) := by
  have hlt : (crc32 bytes).toNat < 2 ^ 32 := (crc32 bytes).toNat_lt
  unfold toBytes4
  rw [if_neg (by omega)]
  simp only [toBytes, Nat.div_div_eq_div_mul, Int.toNat_natCast, Nat.reducePow, Nat.reduceMul]

/-- The fields of an entry one after the other, and their check. -/
def layout (magic name flashName offset len : List UInt8) : List UInt8 :=
  magic ++ name ++ flashName ++ offset ++ len ++
    toBytes 4 (crc32 (magic ++ name ++ flashName ++ offset ++ len)).toNat

/-- What is known of a part that is accepted: its texts, the numbers they are, and the bytes
    of the numbers. -/
structure Accepted (part : OtaPart) (name flashName lenText : List Char) (lenValue : Int)
    (magic offset lenBytes : List UInt8) : Prop where
  magic : ∃ text value, part.magic = some text ∧ pyInt 16 text = some value ∧
    toBytes4 value = .ok magic
  name : part.name = some name
  flashName : part.flashName = some flashName
  offset : ∃ text value, part.offset = some text ∧ pyInt 16 text = some value ∧
    toBytes4 value = .ok offset
  len : part.len = some lenText
  lenNumber : parseSize lenText = some lenValue
  lenBytes : toBytes4 lenValue = .ok lenBytes

theorem serializeOtaPart_ok (part : OtaPart) (bytes : List UInt8)
    (h : serializeOtaPart part = .ok bytes) :
    ∃ name flashName len lenValue magic offset lenBytes,
      Accepted part name flashName len lenValue magic offset lenBytes ∧
        bytes = layout magic (formatStringToBytes name 24) (formatStringToBytes flashName 24)
          offset lenBytes := by
  unfold serializeOtaPart at h
  -- The fields are read and packed one after the other.
  rcases (Stages.bind_eq_ok _ _ _).1 h with ⟨magicText, hmagicText, h⟩
  rcases (Stages.bind_eq_ok _ _ _).1 h with ⟨magicValue, hmagicValue, h⟩
  rcases (Stages.bind_eq_ok _ _ _).1 h with ⟨magic, hmagic, h⟩
  rcases (Stages.bind_eq_ok _ _ _).1 h with ⟨name, hname, h⟩
  rcases (Stages.bind_eq_ok _ _ _).1 h with ⟨flashName, hflashName, h⟩
  rcases (Stages.bind_eq_ok _ _ _).1 h with ⟨offsetText, hoffsetText, h⟩
  rcases (Stages.bind_eq_ok _ _ _).1 h with ⟨offsetValue, hoffsetValue, h⟩
  rcases (Stages.bind_eq_ok _ _ _).1 h with ⟨offset, hoffset, h⟩
  rcases (Stages.bind_eq_ok _ _ _).1 h with ⟨len, hlen, h⟩
  rcases (Stages.bind_eq_ok _ _ _).1 h with ⟨lenValue, hlenValue, h⟩
  rcases (Stages.bind_eq_ok _ _ _).1 h with ⟨lenBytes, hlenBytes, h⟩
  rcases (Stages.bind_eq_ok _ _ _).1 h with ⟨crc, hcrc, h⟩
  rw [toBytes4_crc32] at hcrc
  cases hcrc
  cases h
  exact ⟨name, flashName, len, lenValue, magic, offset, lenBytes,
    ⟨⟨magicText, magicValue, field_ok _ _ _ hmagicText, orValueError_ok _ _ hmagicValue, hmagic⟩,
      field_ok _ _ _ hname, field_ok _ _ _ hflashName,
      ⟨offsetText, offsetValue, field_ok _ _ _ hoffsetText, orValueError_ok _ _ hoffsetValue,
        hoffset⟩, field_ok _ _ _ hlen, orValueError_ok _ _ hlenValue, hlenBytes⟩, rfl⟩

section Entry

variable {part : OtaPart} {name flashName len : List Char} {lenValue : Int}
  {magic offset lenBytes : List UInt8}

theorem Accepted.lengths
    (h : Accepted part name flashName len lenValue magic offset lenBytes) :
    magic.length = 4 ∧ offset.length = 4 ∧ lenBytes.length = 4 := by
  rcases h.magic with ⟨_, _, _, _, hmagic⟩
  rcases h.offset with ⟨_, _, _, _, hoffset⟩
  exact ⟨(toBytes4_ok _ _ hmagic).1, (toBytes4_ok _ _ hoffset).1, (toBytes4_ok _ _ h.lenBytes).1⟩

theorem checkedEntry_layout (nameBytes flashBytes : List UInt8) (hmagic : magic.length = 4)
    (hname : nameBytes.length = 24) (hflash : flashBytes.length = 24)
    (hoffset : offset.length = 4) (hlen : lenBytes.length = 4) :
    CheckedEntry (layout magic nameBytes flashBytes offset lenBytes) := by
  have hbody : (magic ++ nameBytes ++ flashBytes ++ offset ++ lenBytes).length = 60 := by
    simp only [List.length_append, hmagic, hname, hflash, hoffset, hlen]
  unfold CheckedEntry layout
  refine ⟨?_, ?_⟩
  · rw [List.length_append, hbody, ByteOrder.length_toBytes]
  · rw [List.drop_left' hbody, List.take_left' hbody]

/-- An entry is read field by field. -/
theorem decodeEntry_layout (nameBytes flashBytes : List UInt8) (hmagic : magic.length = 4)
    (hname : nameBytes.length = 24) (hflash : flashBytes.length = 24)
    (hoffset : offset.length = 4) (hlen : lenBytes.length = 4) :
    decodeEntry (layout magic nameBytes flashBytes offset lenBytes) =
      (decodeName nameBytes).bind fun name => (decodeName flashBytes).map fun flashName =>
        ⟨ofBytes magic, name, flashName, ofBytes offset, ofBytes lenBytes⟩ := by
  have hfields : layout magic nameBytes flashBytes offset lenBytes =
      magic ++ (nameBytes ++ (flashBytes ++ (offset ++ (lenBytes ++
        toBytes 4 (crc32 (magic ++ nameBytes ++ flashBytes ++ offset ++ lenBytes)).toNat)))) := by
    simp only [layout, List.append_assoc]
  -- each field is read behind those in front of it
  have hskip : ∀ (front rest : List UInt8) (n k : Nat), front.length = n →
      (front ++ rest).drop (n + k) = rest.drop k := by
    intro front rest n k hfront
    rw [← List.drop_drop, List.drop_left' hfront]
  unfold decodeEntry
  rw [hfields]
  generalize toBytes 4 (crc32 (magic ++ nameBytes ++ flashBytes ++ offset ++ lenBytes)).toNat = crc
  rw [List.take_left' hmagic, List.drop_left' hmagic, List.take_left' hname,
    hskip magic _ 4 24 hmagic, List.drop_left' hname, List.take_left' hflash,
    hskip magic _ 4 48 hmagic, hskip nameBytes _ 24 24 hname, List.drop_left' hflash,
    List.take_left' hoffset, hskip magic _ 4 52 hmagic, hskip nameBytes _ 24 28 hname,
    hskip flashBytes _ 24 4 hflash, List.drop_left' hoffset, List.take_left' hlen]
  cases decodeName nameBytes <;> cases decodeName flashBytes <;> rfl

theorem Accepted.entry_eq
    (h : Accepted part name flashName len lenValue magic offset lenBytes) :
    part.entry = some ⟨ofBytes magic, name, flashName, ofBytes offset, ofBytes lenBytes⟩ := by
  rcases h.magic with ⟨magicText, magicValue, hmagicText, hmagicValue, hmagic⟩
  rcases h.offset with ⟨offsetText, offsetValue, hoffsetText, hoffsetValue, hoffset⟩
  simp only [OtaPart.entry, hmagicText, hmagicValue, h.name, h.flashName, hoffsetText,
    hoffsetValue, h.len, h.lenNumber, (toBytes4_ok _ _ hmagic).2, (toBytes4_ok _ _ hoffset).2,
    (toBytes4_ok _ _ h.lenBytes).2, bind, Option.bind]

/-- The packer reaches the length of a part, and writes the entry that the builder writes if
    the names fit. -/
theorem sdkPart_eq (h : Accepted part name flashName len lenValue magic offset lenBytes) :
    sdkSerializePart part = (parseFormatSize len).bind fun value =>
      (toBytes4 value).map fun length =>
        layout magic (sdkFormatStringToBytes name 24) (sdkFormatStringToBytes flashName 24) offset
          length := by
  rcases h.magic with ⟨magicText, magicValue, hmagicText, hmagicValue, hmagic⟩
  rcases h.offset with ⟨offsetText, offsetValue, hoffsetText, hoffsetValue, hoffset⟩
  simp only [sdkSerializePart, field, hmagicText, orValueError, hmagicValue, hmagic, h.name,
    h.flashName, hoffsetText, hoffsetValue, hoffset, h.len, toBytes4_crc32, bind, Except.bind]
  cases parseFormatSize len with
  | error e => rfl
  | ok value =>
      simp only
      cases toBytes4 value <;> rfl

end Entry

theorem plainPart_of_accepted {part : OtaPart} {name flashName len : List Char}
    {lenValue : Int} {magic offset lenBytes : List UInt8}
    (h : Accepted part name flashName len lenValue magic offset lenBytes) :
    PlainPart part ↔ PlainName name ∧ PlainName flashName ∧ DecimalSize len := by
  constructor
  · intro hplain
    exact ⟨hplain.name name h.name, hplain.flashName flashName h.flashName, hplain.len len h.len⟩
  · rintro ⟨hname, hflash, hlen⟩
    refine ⟨fun n hn => ?_, fun n hn => ?_, fun n hn => ?_⟩
    · cases Option.some.inj (h.name.symm.trans hn)
      exact hname
    · cases Option.some.inj (h.flashName.symm.trans hn)
      exact hflash
    · cases Option.some.inj (h.len.symm.trans hn)
      exact hlen

/-- Only a plain part is read back and accepted by the packer. -/
theorem plainPart_iff (part : OtaPart) (bytes : List UInt8)
    (h : serializeOtaPart part = .ok bytes) :
    PlainPart part ↔
      decodeEntry bytes = part.entry ∧ ∃ out, sdkSerializePart part = .ok out := by
  rcases serializeOtaPart_ok part bytes h with
    ⟨name, flashName, len, lenValue, magic, offset, lenBytes, hacc, rfl⟩
  rcases hacc.lengths with ⟨hmagic, hoffset, hlenBytes⟩
  have hsize := parseFormatSize_of_parseSize len lenValue hacc.lenNumber
  -- names and numbers of the entry come back one by one
  rw [plainPart_of_accepted hacc, hacc.entry_eq, sdkPart_eq hacc,
    decodeEntry_layout _ _ hmagic (length_formatStringToBytes name 24)
      (length_formatStringToBytes flashName 24) hoffset hlenBytes, ← decodeName_iff,
    ← decodeName_iff, ← and_assoc]
  refine and_congr ?_ ?_
  · -- The numbers come back, so the entry does if both names do.
    cases decodeName (formatStringToBytes name 24) with
    | none => simp
    | some name' =>
        cases decodeName (formatStringToBytes flashName 24) with
        | none => simp
        | some flashName' => simp
  · -- The packer of the SDK takes a length that is decimal.
    constructor
    · intro hdecimal
      rw [hsize.1 hdecimal, Except.bind, hacc.lenBytes]
      exact ⟨_, rfl⟩
    · rintro ⟨out, hout⟩
      by_contra hdecimal
      rw [hsize.2 hdecimal] at hout
      exact absurd hout (by simp [Except.bind])

/-- The packer writes the entry of a plain part as the builder does. -/
theorem sdkPart_of_plain (part : OtaPart) (bytes : List UInt8)
    (h : serializeOtaPart part = .ok bytes) (hplain : PlainPart part) :
    sdkSerializePart part = .ok bytes := by
  rcases serializeOtaPart_ok part bytes h with
    ⟨name, flashName, len, lenValue, magic, offset, lenBytes, hacc, rfl⟩
  rcases (plainPart_of_accepted hacc).1 hplain with ⟨hname, hflash, hdecimal⟩
  rw [sdkPart_eq hacc, (parseFormatSize_of_parseSize len lenValue hacc.lenNumber).1 hdecimal,
    sdkFormat_eq name hname.1, sdkFormat_eq flashName hflash.1, Except.bind, hacc.lenBytes]
  rfl

theorem checkedEntry_of_ok (part : OtaPart) (bytes : List UInt8)
    (h : serializeOtaPart part = .ok bytes) : CheckedEntry bytes := by
  rcases serializeOtaPart_ok part bytes h with
    ⟨name, flashName, len, lenValue, magic, offset, lenBytes, hacc, rfl⟩
  rcases hacc.lengths with ⟨hmagic, hoffset, hlenBytes⟩
  exact checkedEntry_layout _ _ hmagic (length_formatStringToBytes name 24)
    (length_formatStringToBytes flashName 24) hoffset hlenBytes

theorem entry_isSome (part : OtaPart) (bytes : List UInt8)
    (h : serializeOtaPart part = .ok bytes) : ∃ e, part.entry = some e := by
  rcases serializeOtaPart_ok part bytes h with ⟨_, _, _, _, _, _, _, hacc, -⟩
  exact ⟨_, hacc.entry_eq⟩

/-! ### Tables -/

/-- Entry by entry, a table reads as the parts it was written from. -/
theorem decodeTable_iff (parts : List OtaPart) (entries : List (List UInt8))
    (h : List.Forall₂ (fun p e => serializeOtaPart p = .ok e) parts entries) :
    (decodeTable parts.length entries.flatten).map (List.map some) =
        some (parts.map OtaPart.entry) ↔
      List.Forall₂ (fun p e => decodeEntry e = OtaPart.entry p) parts entries := by
  induction h with
  | nil => exact ⟨fun _ => .nil, fun _ => rfl⟩
  | @cons p e parts entries hp _ ih =>
      have hlen := (checkedEntry_of_ok p e hp).1
      rcases entry_isSome p e hp with ⟨entry, hentry⟩
      -- The table is read one entry after the other.
      have htable : decodeTable (p :: parts).length (e :: entries).flatten =
          (decodeEntry e).bind fun entry =>
            (decodeTable parts.length entries.flatten).map (entry :: ·) := by
        rw [List.flatten_cons, List.length_cons, decodeTable, List.take_left' hlen,
          List.drop_left' hlen]
        cases decodeEntry e with
        | none => rfl
        | some entry => cases decodeTable parts.length entries.flatten <;> rfl
      rw [htable, List.forall₂_cons, ← ih, hentry, List.map_cons, hentry]
      cases decodeEntry e with
      | none => simp
      | some entry' =>
          cases decodeTable parts.length entries.flatten with
          | none => simp
          | some rest => simp

theorem mapM_of_forall₂ {ε α β : Type} (f : α → Except ε β) (as : List α) (bs : List β)
    (h : List.Forall₂ (fun a b => f a = .ok b) as bs) : as.mapM f = .ok bs := by
  induction h with
  | nil => rfl
  | cons hab _ ih =>
      rw [List.mapM_cons, hab, ih]
      rfl

/-- The table keeps the law if all of its parts are plain, and only then. -/
theorem ota_table_iff (parts : List OtaPart) (out : List UInt8)
    (h : serializeOtaPartitionsTable parts = .ok out) :
    OtaFaithful parts out ↔ ∀ p ∈ parts, PlainPart p := by
  rcases hentries : parts.mapM serializeOtaPart with e | entries
  · rw [serializeOtaPartitionsTable, hentries] at h
    -- the parts are serialised one by one, and in their order
    exact absurd h (by simp [Except.map])
  have hout : entries.flatten = out := by
    rw [serializeOtaPartitionsTable, hentries] at h
    exact Except.ok.inj h
  have hall := mapM_forall₂ _ _ _ hentries
  constructor
  · -- An entry that is read back and written by the SDK is plain.
    intro hlaw p hp
    have hdecodes := hlaw.decodes
    rw [← hout, decodeTable_iff parts entries hall] at hdecodes
    rcases hsdk : parts.mapM sdkSerializePart with e | written
    · have hsame := hlaw.same
      rw [serializePartitionsTable, hsdk] at hsame
      exact absurd hsame (by simp [Except.map])
    have hwritten := mapM_forall₂ _ _ _ hsdk
    -- entry and part at one index belong together
    rcases List.getElem_of_mem hp with ⟨i, hi, rfl⟩
    have hi' : i < entries.length := hall.length_eq ▸ hi
    have hi'' : i < written.length := hwritten.length_eq ▸ hi
    exact (plainPart_iff _ _ (hall.get hi hi')).2
      ⟨hdecodes.get hi hi', _, hwritten.get hi hi''⟩
  · -- Plain parts are read back and written alike.
    intro hplain
    refine ⟨⟨entries, hout, hall.length_eq.symm, ?_⟩, ?_, ?_⟩
    · intro e he
      rcases List.getElem_of_mem he with ⟨i, hi, rfl⟩
      exact checkedEntry_of_ok _ _ (hall.get (hall.length_eq ▸ hi) hi)
    · rw [← hout, decodeTable_iff parts entries hall, List.forall₂_iff_get]
      refine ⟨hall.length_eq, fun i hi hi' => ?_⟩
      exact ((plainPart_iff _ _ (hall.get hi hi')).1 (hplain _ (List.get_mem ..))).1
    · have hsdk : parts.mapM sdkSerializePart = .ok entries := by
        apply mapM_of_forall₂
        rw [List.forall₂_iff_get]
        refine ⟨hall.length_eq, fun i hi hi' => ?_⟩
        exact sdkPart_of_plain _ _ (hall.get hi hi') (hplain _ (List.get_mem ..))
      rw [serializePartitionsTable, hsdk, ← hout]
      rfl

/-- A part of a table, with its length as given. -/
def bootloaderPart (len : String) : OtaPart where
  magic := some "0x45503130".toList
  name := some "bootloader".toList
  flashName := some "beken_onchip".toList
  offset := some "0x00000000".toList
  len := some len.toList

theorem ota_table_decimal :
    ∃ out, serializeOtaPartitionsTable [bootloaderPart "68K"] = .ok out ∧
      OtaFaithful [bootloaderPart "68K"] out := by
  have hok : (serializeOtaPartitionsTable [bootloaderPart "68K"]).toOption.isSome = true := by
    decide +kernel
  rcases hout : serializeOtaPartitionsTable [bootloaderPart "68K"] with e | out
  · rw [hout] at hok
    exact absurd hok Bool.false_ne_true
  refine ⟨out, rfl, (ota_table_iff _ out hout).2 fun p hp => ?_⟩
  rw [List.mem_singleton.1 hp]
  refine ⟨fun name hname => ?_, fun name hname => ?_, fun len hlen => ?_⟩
  · rw [← Option.some.inj hname]
    exact ⟨by decide, by decide⟩
  · rw [← Option.some.inj hname]
    exact ⟨by decide, by decide⟩
  · rw [← Option.some.inj hlen]
    exact Or.inl (by decide)

/-- The packer raises on a length with a base, which the builder accepts. -/
theorem not_faithful_hexadecimal :
    ∃ out, serializeOtaPartitionsTable [bootloaderPart "0x11000"] = .ok out ∧
      ¬OtaFaithful [bootloaderPart "0x11000"] out := by
  have hok : (serializeOtaPartitionsTable [bootloaderPart "0x11000"]).toOption.isSome = true := by
    decide +kernel
  have hsdk : serializePartitionsTable [bootloaderPart "0x11000"] = .error .valueError := rfl
  rcases hout : serializeOtaPartitionsTable [bootloaderPart "0x11000"] with e | out
  · rw [hout] at hok
    exact absurd hok Bool.false_ne_true
  refine ⟨out, rfl, fun h => ?_⟩
  have hsame := h.same
  rw [hsdk] at hsame
  exact absurd hsame (by simp)

end Tools

end ArduinoBeken
