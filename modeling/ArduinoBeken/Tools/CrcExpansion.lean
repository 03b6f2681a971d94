import ArduinoBeken.Library.Crc
import ArduinoBeken.Tools.FlashImage

/-!
# The Expansion and Its CRC

The builder and the packer of the SDK both put a CRC behind every 32 bytes of a firmware.
Their register starts with 32 bits set and is never cut off, so it grows with every shift. Only
its low sixteen bits matter: they are the register of the standard check with the polynomial
`0x8005` that starts with `0xFFFF`, whatever is above them.

The packer takes a file in pieces of 4096 bytes. A piece is a number of groups, except the
last, so the pieces are expanded like the whole.

## Main definitions

* `standardCrc`: The standard check.
* `groupsOf`, `expanded`: The groups of a firmware, and what its expansion is to be.
* `crc16`, `crc16Data`, `crc16Handle`, `crcFile`: The packer of the SDK.

## Theorems

* `ofNat_chunkCrc`: The low bits of the register.
* `crcGroups_eq`: What comes out, group by group.
* `crc16Data_eq`, `crc16Handle_eq`: The packer agrees with the builder.
* `expansion_standard`: The law of the expansion.
-/

namespace ArduinoBeken

namespace Tools

/-- The standard check of sixteen bits with the polynomial `0x8005` that starts with
    `0xFFFF`. -/
def standardCrc (bytes : List UInt8) : BitVec 16 :=
  Crc.crcBytes 0x8005#16 0xFFFF#16 bytes

/-- The check value of the digits from one to nine. -/
example : standardCrc [49, 50, 51, 52, 53, 54, 55, 56, 57] = 0xAEE7#16 := by
  decide +kernel

/-- Two bytes, the high one first. -/
def bigEndian16 (crc : BitVec 16) : List UInt8 :=
  [UInt8.ofNat (crc.toNat / 256), UInt8.ofNat crc.toNat]

/-- So many groups of 32 bytes from the front. -/
def groupsOf : Nat → List UInt8 → List (List UInt8)
  | 0, _ => []
  | n + 1, data => data.take 32 :: groupsOf n (data.drop 32)

/-- Every group followed by its check. -/
def expanded (groups : List (List UInt8)) : List UInt8 :=
  groups.flatMap fun group => group ++ bigEndian16 (standardCrc group)

/-! ### The packer of the SDK -/

/-- `crc16(data, offset, length)`. -/
def crc16 (data : List UInt8) (offset length : Int) : Nat :=
  if offset < 0 ∨ offset + length > data.length then 0
  else
    ((List.range length.toNat).map fun i => data.getD (offset.toNat + i) 0).foldl crcByte
      0xFFFFFFFF &&& 0xFFFF

/-- `_data_align_handle`. -/
def dataAlignHandle (rawData : List UInt8) : List UInt8 :=
  if rawData.length % crcPackLen = 0 then rawData
  else rawData ++ List.replicate (crcPackLen - rawData.length % crcPackLen) 0xFF

/-- The loop of `crc16_data`. -/
def crc16Groups (data : List UInt8) : List UInt8 :=
  if data = [] then []
  else
    let chunk := data.take crcPackLen
    chunk ++ crcBytes (crc16 chunk 0 crcPackLen) ++ crc16Groups (data.drop crcPackLen)
termination_by data.length
decreasing_by
  rename_i h
  have hpos := List.length_pos_iff.2 h
  rw [List.length_drop]
  unfold crcPackLen
  omega

/-- `crc16_data`. -/
def crc16Data (rawData : List UInt8) : List UInt8 :=
  crc16Groups (dataAlignHandle rawData)

/-- `_crc16_handle`: the file in pieces, until one is empty. -/
def crc16Handle (file : List UInt8) : List UInt8 :=
  if file = [] then [] else crc16Data (file.take 4096) ++ crc16Handle (file.drop 4096)
termination_by file.length
decreasing_by
  rename_i h
  have hpos := List.length_pos_iff.2 h
  rw [List.length_drop]
  omega

/-- `crc_file`, from the contents of the one file to those of the other. The copy that is
    worked on is aligned by `_file_align_handle`, which appends what `_data_align_handle`
    does. -/
def crcFile (file : List UInt8) : List UInt8 :=
  crc16Handle (dataAlignHandle file)

/-! ### The register -/

theorem crcShift_eq (crc : Nat) : crcShift crc = Crc.natShift 16 0x8005 crc := by
  have hbit : crc &&& 0x8000 ≠ 0 ↔ crc.testBit 15 = true := by
    have hand : crc &&& 2 ^ 15 = 2 ^ 15 * (crc.testBit 15).toNat := by
      rw [Nat.and_two_pow, Nat.mul_comm]
    have hconst : (0x8000 : Nat) = 2 ^ 15 := rfl
    rw [hconst, hand]
    cases crc.testBit 15 <;> simp
  unfold crcShift Crc.natShift
  simp only [hbit]

/-- The low bits of the register after a byte. -/
theorem ofNat_crcByte (crc : Nat) (value : UInt8) :
    BitVec.ofNat 16 (crcByte crc value) =
      Crc.feedByte 0x8005#16 (BitVec.ofNat 16 crc) value := by
  have hshift : crcShift = Crc.natShift 16 0x8005 := funext crcShift_eq
  rw [crcByte, hshift, Crc.ofNat_iterate_natShift (Nat.succ_pos 15), BitVec.ofNat_xor]
  rfl

/-- The low bits of the register are the standard check, whatever is above them. -/
theorem ofNat_foldl_crcByte (crc : Nat) (chunk : List UInt8) :
    BitVec.ofNat 16 (chunk.foldl crcByte crc) =
      Crc.crcBytes 0x8005#16 (BitVec.ofNat 16 crc) chunk := by
  rw [← Crc.foldl_feedByte (by omega)]
  induction chunk generalizing crc with
  | nil => rfl
  | cons value chunk ih => rw [List.foldl_cons, ih, ofNat_crcByte, List.foldl_cons]

theorem ofNat_chunkCrc (chunk : List UInt8) :
    BitVec.ofNat 16 (chunkCrc chunk) = standardCrc chunk :=
  ofNat_foldl_crcByte 0xFFFFFFFF chunk

/-- The standard check is the remainder of the message and of the start value on division by
    the polynomial. -/
theorem standardCrc_eq_mod (bytes : List UInt8) :
    Crc.toPoly (standardCrc bytes) =
      (Crc.toPoly 0xFFFF#16 * Polynomial.X ^ (bytes.flatMap Crc.bitsOf).length +
        Crc.messagePoly (bytes.flatMap Crc.bitsOf) * Polynomial.X ^ 16) %ₘ
          Crc.generator 0x8005#16 :=
  (Crc.toPoly_crc_eq_mod (Nat.succ_pos 15) _ _ _).symm

theorem crcBytes_eq (crc : Nat) : crcBytes crc = bigEndian16 (BitVec.ofNat 16 crc) := by
  have hmask : crc &&& 0xFFFF = crc % 2 ^ 16 := Nat.and_two_pow_sub_one_eq_mod crc 16
  have hlow : UInt8.ofNat (crc % 2 ^ 16 % 256) = UInt8.ofNat (crc % 2 ^ 16) := by
    apply UInt8.toNat_inj.1
    rw [UInt8.toNat_ofNat', UInt8.toNat_ofNat']
    omega
  rw [crcBytes, bigEndian16, BitVec.toNat_ofNat, hmask, hlow]

/-! ### The groups -/

theorem length_groupsOf (n : Nat) (data : List UInt8) : (groupsOf n data).length = n := by
  induction n generalizing data with
  | zero => rfl
  | succ n ih => rw [groupsOf, List.length_cons, ih]

/-- The groups of whole groups are the bytes, 32 at a time. -/
theorem flatten_groupsOf (n : Nat) (data : List UInt8) (h : data.length = 32 * n) :
    (groupsOf n data).flatten = data ∧ ∀ group ∈ groupsOf n data, group.length = 32 := by
  -- induction on the groups of 32 bytes
  induction n generalizing data with
  | zero =>
      rw [List.length_eq_zero_iff.1 h]
      exact ⟨rfl, fun _ hmem => absurd hmem List.not_mem_nil⟩
  | succ n ih =>
      rcases ih (data.drop 32) (by rw [List.length_drop]; omega) with ⟨hflat, hlen⟩
      refine ⟨?_, ?_⟩
      · rw [groupsOf, List.flatten_cons, hflat, List.take_append_drop]
      · intro group hmem
        rcases List.mem_cons.1 hmem with rfl | hmem
        · rw [List.length_take]
          omega
        · exact hlen group hmem

/-- What comes out of the loop, group by group. -/
theorem crcGroups_eq (n : Nat) (data : List UInt8) (h : data.length = 32 * n) :
    crcGroups data = expanded (groupsOf n data) := by
  induction n generalizing data with
  | zero =>
      rw [List.length_eq_zero_iff.1 h, crcGroups_nil]
      rfl
  | succ n ih =>
      have hne : data ≠ [] := List.length_pos_iff.1 (by omega)
      rw [crcGroups_cons data hne, ih (data.drop 32) (by rw [List.length_drop]; omega),
        crcBytes_eq, ofNat_chunkCrc]
      rfl

/-! ### The packer agrees -/

theorem dataAlignHandle_eq (data : List UInt8) : dataAlignHandle data = padGroups 0xFF data := by
  unfold dataAlignHandle padGroups
  by_cases h : data.length % crcPackLen = 0
  · rw [if_pos h, if_neg (not_not.2 h)]
  · rw [if_neg h, if_pos h]

/-- A group that is aligned already stays as it is. -/
theorem padGroups_of_aligned (n : Nat) (data : List UInt8) (h : data.length = 32 * n) :
    padGroups 0xFF data = data := by
  unfold padGroups crcPackLen
  rw [if_neg (by omega)]

theorem crc16_chunk (chunk : List UInt8) (h : chunk.length = 32) :
    crc16 chunk 0 crcPackLen = chunkCrc chunk &&& 0xFFFF := by
  -- the range the tool goes over is the whole group
  have hall : ((List.range ((crcPackLen : Int)).toNat).map fun i =>
      chunk.getD ((0 : Int).toNat + i) 0) = chunk := by
    apply List.ext_getElem
    · rw [List.length_map, List.length_range, h]
      rfl
    · intro i hi hi'
      rw [List.getElem_map, List.getElem_range]
      simp only [Int.toNat_zero, Nat.zero_add]
      exact List.getD_eq_getElem _ _ hi'
  have hfits : ¬((0 : Int) < 0 ∨ (0 : Int) + (crcPackLen : Int) > (chunk.length : Int)) := by
    rw [h]
    decide
  rw [crc16, if_neg hfits, hall]
  rfl

theorem crcBytes_masked (crc : Nat) : crcBytes (crc &&& 0xFFFF) = crcBytes crc := by
  unfold crcBytes
  rw [Nat.and_assoc, Nat.and_self]

theorem crc16Groups_eq (n : Nat) (data : List UInt8) (h : data.length = 32 * n) :
    crc16Groups data = crcGroups data := by
  -- the last group is filled up, but here all are full
  induction n generalizing data with
  | zero =>
      rw [List.length_eq_zero_iff.1 h, crcGroups_nil, crc16Groups]
      rfl
  | succ n ih =>
      have hne : data ≠ [] := List.length_pos_iff.1 (by omega)
      have hchunk : (data.take 32).length = 32 := by
        rw [List.length_take]
        omega
      rw [crcGroups_cons data hne, crc16Groups, if_neg hne]
      simp only [show crcPackLen = 32 from rfl]
      rw [ih (data.drop 32) (by rw [List.length_drop]; omega)]
      have hcrc := crc16_chunk (data.take 32) hchunk
      rw [show crcPackLen = 32 from rfl] at hcrc
      rw [hcrc, crcBytes_masked]

/-- The packer's data function is the builder's. -/
theorem crc16Data_eq (data : List UInt8) : crc16Data data = bkCrc16 data := by
  rw [crc16Data, dataAlignHandle_eq, crc16Groups_eq _ _ (padGroups_length 0xFF data), bkCrc16]

theorem crcGroups_append (n : Nat) (front rest : List UInt8) (h : front.length = 32 * n) :
    crcGroups (front ++ rest) = crcGroups front ++ crcGroups rest := by
  -- whole groups in front are expanded apart from what follows
  induction n generalizing front with
  | zero =>
      rw [List.length_eq_zero_iff.1 h, crcGroups_nil]
      rfl
  | succ n ih =>
      have hne : front ≠ [] := List.length_pos_iff.1 (by omega)
      have htake : (front ++ rest).take 32 = front.take 32 :=
        List.take_append_of_le_length (by omega)
      have hdrop : (front ++ rest).drop 32 = front.drop 32 ++ rest :=
        List.drop_append_of_le_length (by omega)
      rw [crcGroups_cons (front ++ rest) (List.append_ne_nil_of_left_ne_nil hne rest),
        crcGroups_cons front hne, htake, hdrop,
        ih (front.drop 32) (by rw [List.length_drop]; omega)]
      simp only [List.append_assoc]

/-- Whole groups in front are expanded apart from what follows them. -/
theorem bkCrc16_append (n : Nat) (front rest : List UInt8) (h : front.length = 32 * n) :
    bkCrc16 (front ++ rest) = bkCrc16 front ++ bkCrc16 rest := by
  have hpad : padGroups 0xFF (front ++ rest) = front ++ padGroups 0xFF rest := by
    have hmod : (front ++ rest).length % crcPackLen = rest.length % crcPackLen := by
      rw [List.length_append, h]
      unfold crcPackLen
      omega
    unfold padGroups
    rw [hmod]
    split_ifs
    · rw [List.append_assoc]
    · rfl
  rw [bkCrc16, hpad, crcGroups_append n front _ h, bkCrc16, padGroups_of_aligned n front h, bkCrc16]

/-- The pieces are expanded like the whole. -/
theorem crc16Handle_eq (file : List UInt8) : crc16Handle file = bkCrc16 file := by
  -- the file is read in pieces, of which all but the last hold whole groups
  induction file using crc16Handle.induct with
  | case1 =>
      have hnil : bkCrc16 [] = [] := crcGroups_nil
      rw [crc16Handle, if_pos rfl, hnil]
  | case2 file hne ih =>
      rw [crc16Handle, if_neg hne, ih, crc16Data_eq]
      by_cases hlong : 4096 ≤ file.length
      · have hpiece : (file.take 4096).length = 32 * 128 := by
          rw [List.length_take]
          omega
        rw [← bkCrc16_append 128 _ _ hpiece, List.take_append_drop]
      · -- the last piece
        have hall : file.length ≤ 4096 := by omega
        rw [List.take_of_length_le hall, List.drop_eq_nil_of_le hall]
        have hnil : bkCrc16 [] = [] := crcGroups_nil
        rw [hnil, List.append_nil]

theorem bkCrc16_padGroups (data : List UInt8) : bkCrc16 (padGroups 0xFF data) = bkCrc16 data := by
  rw [bkCrc16, padGroups_of_aligned _ _ (padGroups_length 0xFF data), bkCrc16]

/-! ### The law -/

/-- The law of an expansion: the padded bytes in groups, each with its standard check. -/
structure Expands (data out : List UInt8) : Prop where
  groups : ∃ groups, groups.flatten = padGroups 0xFF data ∧ (∀ g ∈ groups, g.length = 32) ∧
    out = expanded groups ∧ out.length = 34 * groups.length
  stripped : stripCrc out = padGroups 0xFF data

/-- The builder's expansion keeps the law, and the packer's two ways give the same. -/
theorem expansion_standard (data : List UInt8) :
    Expands data (bkCrc16 data) ∧ crc16Data data = bkCrc16 data ∧
      crc16Handle data = bkCrc16 data ∧ crcFile data = bkCrc16 data := by
  have hlength := padGroups_length 0xFF data
  rcases flatten_groupsOf _ _ hlength with ⟨hflat, hsize⟩
  refine ⟨⟨⟨groupsOf ((data.length + 31) / 32) (padGroups 0xFF data), hflat, hsize,
    crcGroups_eq _ _ hlength, ?_⟩, stripCrc_bkCrc16 data⟩, crc16Data_eq data,
    crc16Handle_eq data, ?_⟩
  · rw [length_groupsOf, bkCrc16_length]
  · rw [crcFile, dataAlignHandle_eq, crc16Handle_eq, bkCrc16_padGroups]

end Tools

end ArduinoBeken
