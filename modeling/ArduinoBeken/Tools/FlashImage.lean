import ArduinoBeken.Library.Placement
import ArduinoBeken.Library.Stages
import ArduinoBeken.Tools.PythonText
import Mathlib

/-!
# The Flash Image

`build_all_app_image` puts the firmware of every section of `bk_package.json`
at its address and writes one image. With CRC enabled a firmware is padded to
groups of 32 bytes and each group is followed by two bytes of CRC. Sections
are sorted by address; a firmware that is too long for its section and a
section that starts inside another are refused.

The files the builder reads are parameters, absent ones being `none`. The
addresses and sizes are texts, parsed as Python parses them.

## Main definitions

* `bkCrc16`: The expansion of a firmware.
* `buildBootloaderImage`, `buildAppImage`: The two firmwares.
* `packSection`: One section, with its size check.
* `appendSections`: The loop that lays the sections out.
* `buildAllAppImage`: The whole build, and what it leaves in the output file.
* `ImageOf`: What is to be said of an image.

## Theorems

* `stripCrc_bkCrc16`: Without the CRC bytes there is the padded firmware.
* `image_or_unwritten`: The output file is an image of the sections, or as it
  was.
-/

namespace ArduinoBeken

namespace Tools

/-! ### Groups with a CRC -/

/-- `CRC_PACK_LEN`: the bytes that share a check. -/
def crcPackLen : Nat := 32

/-- One of the eight shifts of a byte. The register is never cut off. -/
def crcShift (crc : Nat) : Nat :=
  if crc &&& 0x8000 ≠ 0 then (crc <<< 1) ^^^ 0x8005 else crc <<< 1

/-- One byte is put in from above. -/
def crcByte (crc : Nat) (value : UInt8) : Nat :=
  crcShift^[8] (crc ^^^ (value.toNat <<< 8))

/-- The register behind a group of bytes. -/
def chunkCrc (chunk : List UInt8) : Nat :=
  chunk.foldl crcByte 0xFFFFFFFF

/-- The low sixteen bits, high byte first. -/
def crcBytes (crc : Nat) : List UInt8 :=
  [UInt8.ofNat ((crc &&& 0xFFFF) / 256), UInt8.ofNat ((crc &&& 0xFFFF) % 256)]

/-- Filling up to whole groups. -/
def padGroups (fill : UInt8) (data : List UInt8) : List UInt8 :=
  if data.length % crcPackLen ≠ 0 then
    data ++ List.replicate (crcPackLen - data.length % crcPackLen) fill
  else data

/-- Every group followed by its CRC. -/
def crcGroups (data : List UInt8) : List UInt8 :=
  if data = [] then []
  else
    let chunk := data.take crcPackLen
    chunk ++ crcBytes (chunkCrc chunk) ++ crcGroups (data.drop crcPackLen)
termination_by data.length
decreasing_by
  rename_i h
  rw [List.length_drop]
  have hpos := List.length_pos_iff.2 h
  unfold crcPackLen
  omega

/-- `bk_crc16`: the last group is filled up. -/
def bkCrc16 (data : List UInt8) : List UInt8 :=
  crcGroups (padGroups 0xFF data)

/-- Every group of 34 bytes without its last two. -/
def stripCrc (data : List UInt8) : List UInt8 :=
  if data = [] then [] else data.take 32 ++ stripCrc (data.drop 34)
termination_by data.length
decreasing_by
  rename_i h
  rw [List.length_drop]
  have hpos := List.length_pos_iff.2 h
  omega

/-! ### Parsing and serialising -/

/-- `parse_size`. -/
def parseSize (sizeStr : List Char) : Option Int :=
  let value := upper (strip sizeStr)
  if endsWith value ['K'] then (pyInt 10 value.dropLast).map (· * 1024)
  else if endsWith value ['M'] then (pyInt 10 value.dropLast).map (· * 1024 * 1024)
  else pyInt 0 value

/-- A field of a JSON object. -/
def field (key : String) (value : Option (List Char)) : Except PyError (List Char) :=
  match value with
  | some v => .ok v
  | none => .error (.keyError key)

/-- A number that could not be read is a `ValueError`. -/
def orValueError {α : Type} (value : Option α) : Except PyError α :=
  match value with
  | some v => .ok v
  | none => .error .valueError

/-- `value.to_bytes(4, "little")`. -/
def toBytes4 (value : Int) : Except PyError (List UInt8) :=
  if value < 0 ∨ 2 ^ 32 ≤ value then .error .overflowError
  else
    let n := value.toNat
    .ok [UInt8.ofNat n, UInt8.ofNat (n / 2 ^ 8), UInt8.ofNat (n / 2 ^ 16), UInt8.ofNat (n / 2 ^ 24)]

/-- `format_string_to_bytes`: the text in UTF-8, cut or filled to its length. -/
def formatStringToBytes (value : List Char) (length : Nat) : List UInt8 :=
  let raw := value.flatMap String.utf8EncodeChar
  if raw.length ≥ length then raw.take length
  else raw ++ List.replicate (length - raw.length) 0

/-- One bit of the CRC of the table. -/
def crc32Shift (crc : UInt32) : UInt32 :=
  if crc &&& 1 = 1 then (crc >>> 1) ^^^ 0xEDB88320 else crc >>> 1

/-- `binascii.crc32`. -/
def crc32 (data : List UInt8) : UInt32 :=
  data.foldl (fun crc value => crc32Shift^[8] (crc ^^^ value.toUInt32)) 0xFFFFFFFF ^^^ 0xFFFFFFFF

/-- An entry of `part_table`. -/
structure OtaPart where
  magic : Option (List Char)
  name : Option (List Char)
  flashName : Option (List Char)
  offset : Option (List Char)
  len : Option (List Char)

/-- One entry of the table, in the order of the source, where each field is looked up and read
before the next. -/
def serializeOtaPart (part : OtaPart) : Except PyError (List UInt8) := do
  let magic ← toBytes4 (← orValueError (pyInt 16 (← field "magic" part.magic)))
  let name := formatStringToBytes (← field "name" part.name) 24
  let flashName := formatStringToBytes (← field "flash_name" part.flashName) 24
  let offset ← toBytes4 (← orValueError (pyInt 16 (← field "offset" part.offset)))
  let len ← toBytes4 (← orValueError (parseSize (← field "len" part.len)))
  let entry := magic ++ name ++ flashName ++ offset ++ len
  .ok (entry ++ (← toBytes4 (crc32 entry).toNat))

/-- The entries one after the other. The first that fails fails the table. -/
def serializeOtaPartitionsTable (parts : List OtaPart) : Except PyError (List UInt8) :=
  (parts.mapM serializeOtaPart).map List.flatten

/-! ### The build -/

/-- A section of `bk_package.json`. -/
structure PackSection where
  firmware : Option (List Char)
  startAddr : Option (List Char)
  size : Option (List Char)

/-- `bk_package.json`, with the truth value of `crc_enable`. -/
structure PackJson where
  crcEnable : Bool
  sections : Option (List PackSection)

/-- The files of a build. A file that cannot be parsed is the error it raises;
the table of partitions may be missing from its file. -/
structure BuildFiles where
  packJson : Option (Except PyError PackJson)
  bootloader : Option (List UInt8)
  otaJson : Option (Except PyError (Option (List OtaPart)))
  app : Option (List UInt8)
  sysPersist4k : Option (List UInt8)

/-- The bootloader, with the table behind it if there is a JSON file for one. -/
def buildBootloaderImage (bootloader : List UInt8)
    (otaJson : Option (Except PyError (Option (List OtaPart)))) : Except PyError (List UInt8) :=
  match otaJson with
  | none => .ok bootloader
  | some json => do
      match ← json with
      | none => .error (.keyError "part_table")
      | some parts => .ok (padGroups 0 bootloader ++ (← serializeOtaPartitionsTable parts))

/-- The application, with the persistent configuration before it if there is one. -/
def buildAppImage (app : List UInt8) (sysPersist4k : Option (List UInt8)) : List UInt8 :=
  match sysPersist4k with
  | some persist => persist ++ app
  | none => app

/-- `bootloader.bin`. -/
def bootloaderBin : List Char :=
  ['b', 'o', 'o', 't', 'l', 'o', 'a', 'd', 'e', 'r', '.', 'b', 'i', 'n']

/-- `app.bin`. -/
def appBin : List Char :=
  ['a', 'p', 'p', '.', 'b', 'i', 'n']

/-- The firmwares by name. -/
structure WorkFiles where
  bootloader : List UInt8
  app : List UInt8

/-- The file of a section in the working directory. -/
def WorkFiles.get (work : WorkFiles) (firmware : List Char) : Except PyError (List UInt8) :=
  if firmware = bootloaderBin then .ok work.bootloader
  else if firmware = appBin then .ok work.app
  else .error (.keyError (String.ofList firmware))

/-- `int(section["start_addr"], 16)`. -/
def PackSection.address (s : PackSection) : Except PyError Int := do
  orValueError (pyInt 16 (← field "start_addr" s.startAddr))

/-- The error of a section that has grown beyond its partition. -/
def overPartition (firmware : List Char) : PyError :=
  .runtimeError (String.ofList firmware ++ " size is over partition size after packaging")

/-- The error of sections that overlap. -/
def layoutOverlap : PyError :=
  .runtimeError "partition layout overlap while building all-app.bin"

/-- The bytes of a firmware as they are stored. -/
def packedData (crcEnable : Bool) (raw : List UInt8) : List UInt8 :=
  if crcEnable then bkCrc16 raw else raw

/-- One section: its address and the bytes that go there. -/
def packSection (crcEnable : Bool) (work : WorkFiles) (s : PackSection) :
    Except PyError (Int × List UInt8) := do
  let firmware ← field "firmware" s.firmware
  let raw ← work.get firmware
  let packed := packedData crcEnable raw
  let size ← orValueError (parseSize (← field "size" s.size))
  if (packed.length : Int) > size then .error (overPartition firmware)
  else .ok (← s.address, packed)

/-- The sections by address, in the order of the file where addresses agree. -/
def sortSections (sections : List PackSection) : Except PyError (List PackSection) :=
  (sections.mapM fun s : PackSection => s.address.map (·, s)).map fun keyed =>
    (keyed.insertionSort fun a b => a.1 ≤ b.1).map (·.2)

/-- The loop that lays the sections out. -/
def appendSections : List (Int × List UInt8) → List UInt8 → Int → Except PyError (List UInt8)
  | [], out, _ => .ok out
  | (address, data) :: rest, out, current =>
    if current > address then .error layoutOverlap
    else
      let gap := if current < address then List.replicate (address - current).toNat 0xFF else []
      appendSections rest (out ++ gap ++ data) (address + data.length)

/-- What stands behind the last section. -/
def imageTail : List UInt8 := List.replicate 34 0xFF

/-- `build_all_app_image` up to the write; `none` is returned for a missing
input. -/
def buildImage (files : BuildFiles) : Except PyError (Option (List UInt8)) :=
  match files.packJson, files.bootloader, files.app with
  | some packJson, some bootloader, some app => do
      let pack ← packJson
      -- the boot loader and the application are completed before they are packed
      let work : WorkFiles :=
        { bootloader := ← buildBootloaderImage bootloader files.otaJson
          app := buildAppImage app files.sysPersist4k }
      match pack.sections with
      | none => .error (.keyError "section")
      | some sections =>
          let packed ← (← sortSections sections).mapM (packSection pack.crcEnable work)
          .ok (some ((← appendSections packed [] 0) ++ imageTail))
  | _, _, _ => .ok none

/-- What a build returns, and what it leaves in the output file. -/
structure BuildOutcome where
  result : Except PyError (Option (List UInt8))
  output : Option (List UInt8)

/-- `build_all_app_image`: the file is written only at the end, so a failure leaves the old one.
-/
def buildAllAppImage (files : BuildFiles) (output : Option (List UInt8)) : BuildOutcome :=
  match buildImage files with
  | .ok (some image) => ⟨.ok (some image), some image⟩
  | result => ⟨result, output⟩

/-! ### The expansion -/

theorem padGroups_length (fill : UInt8) (data : List UInt8) :
    (padGroups fill data).length = 32 * ((data.length + 31) / 32) := by
  unfold padGroups crcPackLen
  by_cases h : data.length % 32 ≠ 0
  · rw [if_pos h, List.length_append, List.length_replicate]
    omega
  · rw [if_neg h]
    omega

theorem crcGroups_nil : crcGroups [] = [] := by
  rw [crcGroups]
  rfl

theorem crcGroups_cons (data : List UInt8) (h : data ≠ []) :
    crcGroups data = data.take 32 ++ crcBytes (chunkCrc (data.take 32)) ++
      crcGroups (data.drop 32) := by
  rw [crcGroups, if_neg h]
  rfl

theorem stripCrc_nil : stripCrc [] = [] := by
  rw [stripCrc]
  rfl

/-- Removing the CRC of the first group leaves the group. -/
theorem stripCrc_group (chunk crc rest : List UInt8) (hchunk : chunk.length = 32)
    (hcrc : crc.length = 2) : stripCrc (chunk ++ crc ++ rest) = chunk ++ stripCrc rest := by
  have hne : chunk ++ crc ++ rest ≠ [] := by
    intro hnil
    have hlength := congrArg List.length hnil
    simp only [List.length_append, hchunk, hcrc, List.length_nil] at hlength
    omega
  have hlength : (chunk ++ crc).length = 34 := by
    rw [List.length_append, hchunk, hcrc]
  rw [stripCrc, if_neg hne, ← hlength, List.drop_left, List.append_assoc,
    List.take_append_of_le_length (by omega), List.take_of_length_le (by omega)]

/-- Whole groups survive the expansion, each two bytes longer. -/
theorem crcGroups_spec (groups : Nat) : ∀ data : List UInt8, data.length = 32 * groups →
    stripCrc (crcGroups data) = data ∧ (crcGroups data).length = 34 * groups := by
  -- induction on the groups, each with its two bytes of check sum
  induction groups with
  | zero =>
      intro data hdata
      rw [List.length_eq_zero_iff.1 hdata, crcGroups_nil, stripCrc_nil]
      exact ⟨rfl, rfl⟩
  | succ groups ih =>
      intro data hdata
      have hne : data ≠ [] := by
        intro hnil
        rw [hnil, List.length_nil] at hdata
        omega
      have hchunk : (data.take 32).length = 32 := by
        rw [List.length_take]
        omega
      rcases ih (data.drop 32) (by rw [List.length_drop]; omega) with ⟨hstrip, hlength⟩
      rw [crcGroups_cons data hne]
      refine ⟨?_, ?_⟩
      · rw [stripCrc_group _ _ _ hchunk rfl, hstrip, List.take_append_drop]
      · rw [List.length_append, List.length_append, hchunk, hlength]
        simp only [crcBytes, List.length_cons, List.length_nil]
        omega

/-- Without the CRC bytes there is the padded firmware. -/
theorem stripCrc_bkCrc16 (data : List UInt8) : stripCrc (bkCrc16 data) = padGroups 0xFF data :=
  (crcGroups_spec _ _ (padGroups_length 0xFF data)).1

theorem bkCrc16_length (data : List UInt8) :
    (bkCrc16 data).length = 34 * ((data.length + 31) / 32) :=
  (crcGroups_spec _ _ (padGroups_length 0xFF data)).2

/-! ### What an image is -/

/-- The place of a section: its address, its firmware, and its size. -/
structure Placed where
  start : Nat
  firmware : List UInt8
  size : Int

/-- The section says this, given the firmwares. -/
def PackSection.Describes (work : WorkFiles) (s : PackSection) (p : Placed) : Prop :=
  ∃ name sizeText, s.firmware = some name ∧ work.get name = .ok p.firmware ∧
    s.size = some sizeText ∧ parseSize sizeText = some p.size ∧ s.address = .ok p.start

namespace Placed

/-- The number of bytes stored for a firmware. -/
def storedLength (crcEnable : Bool) (p : Placed) : Nat :=
  if crcEnable then 34 * ((p.firmware.length + 31) / 32) else p.firmware.length

/-- The place behind a section. -/
def stop (crcEnable : Bool) (p : Placed) : Nat :=
  p.start + p.storedLength crcEnable

/-- The bytes of the image at the section's address. -/
def region (crcEnable : Bool) (p : Placed) (image : List UInt8) : List UInt8 :=
  (image.drop p.start).take (p.storedLength crcEnable)

/-- The section reads as its firmware: padded, once the CRC bytes are removed,
and as it is without CRC. -/
def ReadsBack (crcEnable : Bool) (p : Placed) (image : List UInt8) : Prop :=
  if crcEnable then stripCrc (p.region crcEnable image) = padGroups 0xFF p.firmware
  else p.region crcEnable image = p.firmware

/-- Two sections have no place in common. -/
def Apart (crcEnable : Bool) (p q : Placed) : Prop :=
  p.stop crcEnable ≤ q.start ∨ q.stop crcEnable ≤ p.start

/-- The section has a byte at that place of the image. -/
def Covers (crcEnable : Bool) (p : Placed) (i : Nat) : Prop :=
  p.start ≤ i ∧ i < p.stop crcEnable

end Placed

/-- An image of placed sections: each reads back and fits its size, no two
overlap, and the rest is filling, the tail of 34 bytes behind all of them. -/
structure Laid (crcEnable : Bool) (placed : List Placed) (image : List UInt8) : Prop where
  reads : ∀ p ∈ placed, p.ReadsBack crcEnable image
  fits : ∀ p ∈ placed, (p.storedLength crcEnable : Int) ≤ p.size
  apart : placed.Pairwise (Placed.Apart crcEnable)
  blank : ∀ i, i < image.length → (∀ p ∈ placed, ¬ p.Covers crcEnable i) → image[i]? = some 0xFF
  tail : ∃ body, image = body ++ imageTail ∧ ∀ p ∈ placed, p.stop crcEnable ≤ body.length

/-- The image of the sections of a package. -/
def ImageOf (crcEnable : Bool) (work : WorkFiles) (sections : List PackSection)
    (image : List UInt8) : Prop :=
  ∃ placed, List.Forall₂ (PackSection.Describes work) sections placed ∧
    Laid crcEnable placed image

/-! ### The layout -/

open Placement (Block place)

theorem packedData_length (crcEnable : Bool) (p : Placed) :
    (packedData crcEnable p.firmware).length = p.storedLength crcEnable := by
  cases crcEnable with
  | true => exact bkCrc16_length p.firmware
  | false => rfl

/-- The block of a placed section. -/
def Placed.block (crcEnable : Bool) (p : Placed) : Block UInt8 where
  start := p.start
  data := packedData crcEnable p.firmware

theorem Placed.block_stop (crcEnable : Bool) (p : Placed) :
    (p.block crcEnable).stop = p.stop crcEnable := by
  rw [Block.stop, Placed.block, packedData_length]
  rfl

/-- The loop lays out blocks at addresses that are not negative. -/
theorem appendSections_place (packed : List (Int × List UInt8)) (out image : List UInt8)
    (h : appendSections packed out out.length = .ok image) :
    ∃ blocks : List (Block UInt8),
      packed = blocks.map (fun b => ((b.start : Int), b.data)) ∧
      ∃ rest, place 0xFF out.length blocks = some rest ∧ image = out ++ rest := by
  induction packed generalizing out with
  | nil =>
      cases h
      exact ⟨[], rfl, [], rfl, (List.append_nil _).symm⟩
  | cons x packed ih =>
      rcases x with ⟨address, data⟩
      unfold appendSections at h
      -- a section that would start in front of the end is an error
      by_cases hover : (out.length : Int) > address
      · rw [if_pos hover] at h
        exact absurd h (by simp)
      rw [if_neg hover] at h
      have haddress : ((address.toNat : Nat) : Int) = address := Int.toNat_of_nonneg (by omega)
      -- the gap is empty where the section starts at once
      have hgap : (if (out.length : Int) < address then
          List.replicate (address - (out.length : Int)).toNat (0xFF : UInt8) else []) =
          List.replicate (address.toNat - out.length) 0xFF := by
        by_cases hlt : (out.length : Int) < address
        · rw [if_pos hlt]
          congr 1
          omega
        · rw [if_neg hlt]
          have hzero : address.toNat - out.length = 0 := by omega
          rw [hzero]
          rfl
      simp only [hgap] at h
      have hlength : (address + (data.length : Int)) =
          ((out ++ List.replicate (address.toNat - out.length) 0xFF ++ data).length : Nat) := by
        simp only [List.length_append, List.length_replicate]
        omega
      rw [hlength] at h
      rcases ih _ h with ⟨blocks, hblocks, rest, hrest, himage⟩
      refine ⟨⟨address.toNat, data⟩ :: blocks, ?_,
        List.replicate (address.toNat - out.length) 0xFF ++ (data ++ rest), ?_, ?_⟩
      · rw [List.map_cons, hblocks, haddress]
      · have hstop : (out ++ List.replicate (address.toNat - out.length) 0xFF ++ data).length =
            (Block.mk address.toNat data).stop := by
          simp only [List.length_append, List.length_replicate, Block.stop]
          omega
        rw [hstop] at hrest
        rw [place, if_neg (show ¬ address.toNat < out.length by omega), hrest]
        rfl
      · rw [himage]
        simp only [List.append_assoc]

/-! ### The sections -/

theorem field_ok (key : String) (value : Option (List Char)) (v : List Char)
    (h : field key value = .ok v) : value = some v := by
  cases value with
  | none => exact absurd h (by simp [field])
  | some w => cases h; rfl

theorem orValueError_ok {α : Type} (value : Option α) (a : α) (h : orValueError value = .ok a) :
    value = some a := by
  cases value with
  | none => exact absurd h (by simp [orValueError])
  | some b => cases h; rfl

/-- A section that is packed has a known firmware that fits its size. -/
theorem packSection_ok (crcEnable : Bool) (work : WorkFiles) (s : PackSection)
    (x : Int × List UInt8) (h : packSection crcEnable work s = .ok x) :
    ∃ name raw sizeText size, s.firmware = some name ∧ work.get name = .ok raw ∧
      s.size = some sizeText ∧ parseSize sizeText = some size ∧ s.address = .ok x.1 ∧
      x.2 = packedData crcEnable raw ∧ ((packedData crcEnable raw).length : Int) ≤ size := by
  unfold packSection at h
  rcases (Stages.bind_eq_ok _ _ _).1 h with ⟨name, hname, h⟩
  rcases (Stages.bind_eq_ok _ _ _).1 h with ⟨raw, hraw, h⟩
  rcases (Stages.bind_eq_ok _ _ _).1 h with ⟨sizeText, htext, h⟩
  rcases (Stages.bind_eq_ok _ _ _).1 h with ⟨size, hsize, h⟩
  by_cases hover : ((packedData crcEnable raw).length : Int) > size
  · rw [if_pos hover] at h
    -- the size is compared with the data as it is packed
    exact absurd h (by simp)
  rw [if_neg hover] at h
  rcases (Stages.bind_eq_ok _ _ _).1 h with ⟨address, haddress, h⟩
  cases h
  exact ⟨name, raw, sizeText, size, field_ok _ _ _ hname, hraw, field_ok _ _ _ htext,
    orValueError_ok _ _ hsize, haddress, rfl, Int.not_lt.1 hover⟩

/-- What a monadic map over a list gives, element by element. -/
theorem mapM_forall₂ {ε α β : Type} (f : α → Except ε β) (as : List α) (bs : List β)
    (h : as.mapM f = .ok bs) : List.Forall₂ (fun a b => f a = .ok b) as bs := by
  induction as generalizing bs with
  | nil =>
      rw [List.mapM_nil] at h
      cases h
      exact .nil
  | cons a as ih =>
      rw [List.mapM_cons] at h
      rcases (Stages.bind_eq_ok _ _ _).1 h with ⟨b, hb, h⟩
      rcases (Stages.bind_eq_ok _ _ _).1 h with ⟨bs', hbs, h⟩
      cases h
      exact .cons hb (ih bs' hbs)

/-- The sections behind their keys. -/
theorem keyed_sections (sections : List PackSection) (keyed : List (Int × PackSection))
    (h : List.Forall₂ (fun s k => s.address.map (·, s) = .ok k) sections keyed) :
    keyed.map (·.2) = sections := by
  -- the keys are the addresses, and the sections themselves are kept
  induction h with
  | nil => rfl
  | @cons s k sections keyed hsk _ ih =>
      have hk : k.2 = s := by
        cases haddress : s.address with
        | error e =>
            rw [haddress] at hsk
            exact absurd hsk (by simp [Except.map])
        | ok address =>
            rw [haddress] at hsk
            cases hsk
            rfl
      rw [List.map_cons, hk, ih]

/-- Sorting keeps the sections. -/
theorem sortSections_perm (sections sorted : List PackSection)
    (h : sortSections sections = .ok sorted) : sorted.Perm sections := by
  unfold sortSections at h
  cases hkeyed : sections.mapM fun s : PackSection => s.address.map (·, s) with
  | error e =>
      rw [hkeyed] at h
      exact absurd h (by simp [Except.map])
  | ok keyed =>
      rw [hkeyed] at h
      cases h
      have hsections := keyed_sections sections keyed (mapM_forall₂ _ sections keyed hkeyed)
      have hperm := (List.perm_insertionSort (fun a b => a.1 ≤ b.1) keyed).map (·.2)
      rwa [hsections] at hperm

/-- Packed sections at addresses that are not negative are placed ones. -/
theorem placed_of_packed (crcEnable : Bool) (work : WorkFiles) (sections : List PackSection)
    (blocks : List (Block UInt8))
    (h : List.Forall₂ (fun s x => packSection crcEnable work s = .ok x) sections
      (blocks.map fun b => ((b.start : Int), b.data))) :
    ∃ placed, List.Forall₂ (PackSection.Describes work) sections placed ∧
      blocks = placed.map (Placed.block crcEnable) ∧
      ∀ p ∈ placed, (p.storedLength crcEnable : Int) ≤ p.size := by
  induction blocks generalizing sections with
  | nil =>
      cases h
      exact ⟨[], .nil, rfl, fun p hp => absurd hp (by simp)⟩
  | cons b blocks ih =>
      rw [List.map_cons] at h
      cases h with
      | @cons s _ sections _ hs hrest =>
          rcases packSection_ok crcEnable work s _ hs with
            ⟨name, raw, sizeText, size, hname, hraw, htext, hsize, haddress, hdata, hfits⟩
          rcases ih sections hrest with ⟨placed, hdescribes, hblocks, hfit⟩
          let p : Placed := { start := b.start, firmware := raw, size := size }
          -- The block that was packed is the one of the section with its raw data.
          have hblock : p.block crcEnable = b := by
            simp only [Placed.block, p, ← hdata]
          refine ⟨p :: placed,
            .cons ⟨name, sizeText, hname, hraw, htext, hsize, haddress⟩ hdescribes,
            ?_, fun q hq => ?_⟩
          · rw [List.map_cons, hblock, hblocks]
          · rcases List.mem_cons.1 hq with rfl | hq
            · rw [← packedData_length]
              exact hfits
            · exact hfit q hq

/-- Reading a block back, with the CRC bytes removed if there are any. -/
theorem readsBack_of_holds (crcEnable : Bool) (p : Placed) (image : List UInt8)
    (h : Placement.Holds (p.block crcEnable) image) : p.ReadsBack crcEnable image := by
  have hregion : p.region crcEnable image = packedData crcEnable p.firmware := by
    have hdata := h.2
    simp only [Placed.block, packedData_length] at hdata
    exact hdata
  unfold Placed.ReadsBack
  rw [hregion]
  cases crcEnable with
  | true => exact stripCrc_bkCrc16 p.firmware
  | false => rfl

/-- What holds of a part at the front holds with more behind it. -/
theorem holds_append (b : Block UInt8) (image more : List UInt8) (h : Placement.Holds b image) :
    Placement.Holds b (image ++ more) := by
  rcases h with ⟨hstop, hdata⟩
  have hstart : b.start ≤ image.length := Nat.le_trans (Nat.le_add_right _ _) hstop
  refine ⟨by rw [List.length_append]; omega, ?_⟩
  rw [List.drop_append_of_le_length hstart, List.take_append_of_le_length]
  · exact hdata
  · rw [List.length_drop]
    unfold Block.stop at hstop
    omega

/-- Sections that are packed and laid out make an image of them. -/
theorem laid_of_packed (crcEnable : Bool) (work : WorkFiles) (sections : List PackSection)
    (packed : List (Int × List UInt8)) (body : List UInt8)
    (hpacked : sections.mapM (packSection crcEnable work) = .ok packed)
    (hbody : appendSections packed [] 0 = .ok body) :
    ImageOf crcEnable work sections (body ++ imageTail) := by
  rcases appendSections_place packed [] body hbody with ⟨blocks, rfl, image, hplace, himage⟩
  rw [List.nil_append] at himage
  subst himage
  rcases placed_of_packed crcEnable work sections blocks (mapM_forall₂ _ _ _ hpacked) with
    ⟨placed, hdescribes, rfl, hfits⟩
  -- the packed sections are the blocks of the placement
  have hholds := Placement.place_holds _ _ _ hplace
  have hapart := Placement.place_apart _ _ _ _ hplace
  have hmem : ∀ p ∈ placed, p.block crcEnable ∈ placed.map (Placed.block crcEnable) :=
    fun p hp => List.mem_map_of_mem hp
  refine ⟨placed, hdescribes, ?_, hfits, ?_, ?_, ?_⟩
  · exact fun p hp => readsBack_of_holds crcEnable p _ (holds_append _ _ _ (hholds _ (hmem p hp)))
  · rw [List.pairwise_map] at hapart
    refine hapart.imp fun {p q} h => ?_
    rw [Block.Apart, Placed.block_stop, Placed.block_stop] at h
    exact h
  · -- Outside all sections the image is filler, and so is what is appended.
    intro i hi hcover
    by_cases hin : i < body.length
    · rw [List.getElem?_append_left hin]
      refine Placement.place_blank _ _ _ hplace i hin fun b hb => ?_
      rcases List.mem_map.1 hb with ⟨p, hp, rfl⟩
      rw [Block.Covers, Placed.block_stop]
      exact hcover p hp
    · rw [List.getElem?_append_right (by omega), imageTail, List.getElem?_replicate, if_pos]
      simp only [imageTail, List.length_append, List.length_replicate] at hi
      omega
  · refine ⟨body, rfl, fun p hp => ?_⟩
    have hstop := (hholds _ (hmem p hp)).1
    rwa [Placed.block_stop] at hstop

/-- The order of the sections does not matter to what an image is. -/
theorem imageOf_perm (crcEnable : Bool) (work : WorkFiles) (sections sorted : List PackSection)
    (image : List UInt8) (hperm : sorted.Perm sections)
    (h : ImageOf crcEnable work sorted image) : ImageOf crcEnable work sections image := by
  rcases h with ⟨placed, hdescribes, hlaid⟩
  rcases List.perm_comp_forall₂ hperm.symm hdescribes with ⟨placed', hdescribes', hperm'⟩
  have hmem : ∀ p, p ∈ placed' ↔ p ∈ placed := fun p => hperm'.mem_iff
  refine ⟨placed', hdescribes', ?_, ?_, ?_, ?_, ?_⟩
  · exact fun p hp => hlaid.reads p ((hmem p).1 hp)
  · exact fun p hp => hlaid.fits p ((hmem p).1 hp)
  · exact (hperm'.pairwise_iff (fun {_ _} h => Or.symm h)).2 hlaid.apart
  · exact fun i hi hcover => hlaid.blank i hi fun p hp => hcover p ((hmem p).2 hp)
  · rcases hlaid.tail with ⟨body, himage, hstop⟩
    exact ⟨body, himage, fun p hp => hstop p ((hmem p).1 hp)⟩

/-- The inputs of the build are there and can be read, and the image is one of
their sections. -/
def BuiltFrom (files : BuildFiles) (image : List UInt8) : Prop :=
  ∃ pack bootloader app sections boot,
    files.packJson = some (.ok pack) ∧ files.bootloader = some bootloader ∧
    files.app = some app ∧ pack.sections = some sections ∧
    buildBootloaderImage bootloader files.otaJson = .ok boot ∧
    ImageOf pack.crcEnable { bootloader := boot, app := buildAppImage app files.sysPersist4k }
      sections image

/-- An image that is built is one of the sections of the package. -/
theorem buildImage_builtFrom (files : BuildFiles) (image : List UInt8)
    (h : buildImage files = .ok (some image)) : BuiltFrom files image := by
  unfold buildImage at h
  split at h
  · rename_i packJson bootloader app hpack hboot happ
    -- each stage has succeeded, with the result that the next one takes
    rcases (Stages.bind_eq_ok _ _ _).1 h with ⟨pack, hjson, h₁⟩
    rcases (Stages.bind_eq_ok _ _ _).1 h₁ with ⟨boot, hbootImage, h₂⟩
    rw [hjson] at hpack
    cases hsections : pack.sections with
    | none =>
        simp only [hsections] at h₂
        exact absurd h₂ (by simp)
    | some sections =>
        simp only [hsections] at h₂
        rcases (Stages.bind_eq_ok _ _ _).1 h₂ with ⟨sorted, hsorted, h₃⟩
        rcases (Stages.bind_eq_ok _ _ _).1 h₃ with ⟨packed, hpacked, h₄⟩
        rcases (Stages.bind_eq_ok _ _ _).1 h₄ with ⟨body, hbody, h₅⟩
        cases h₅
        exact ⟨pack, bootloader, app, sections, boot, hpack, hboot, happ, hsections, hbootImage,
          imageOf_perm _ _ _ _ _ (sortSections_perm sections sorted hsorted)
            (laid_of_packed _ _ _ _ _ hpacked hbody)⟩
  · exact absurd h (by simp)

/-- A build leaves the output file as it was, having raised or missed an
input, or writes an image of the sections. -/
theorem image_or_unwritten (files : BuildFiles) (output : Option (List UInt8)) :
    ((buildAllAppImage files output).output = output ∧
      ∀ image, (buildAllAppImage files output).result ≠ .ok (some image)) ∨
    ∃ image, (buildAllAppImage files output).output = some image ∧
      (buildAllAppImage files output).result = .ok (some image) ∧ BuiltFrom files image := by
  unfold buildAllAppImage
  cases hbuild : buildImage files with
  | error e => exact Or.inl ⟨rfl, fun image h => by cases h⟩
  | ok result =>
      cases result with
      | none => exact Or.inl ⟨rfl, fun image h => by cases h⟩
      | some image => exact Or.inr ⟨image, rfl, rfl, buildImage_builtFrom files image hbuild⟩

/-! Without CRC a firmware is stored as it is, so the next section may follow
where padding would have to stand. -/

/-- Two sections of one byte each, without CRC. -/
def unpaddedFiles : BuildFiles where
  packJson := some (.ok
    { crcEnable := false
      sections := some
        [{ firmware := some bootloaderBin, startAddr := some ['0'], size := some ['1'] },
          { firmware := some appBin, startAddr := some ['1'], size := some ['1'] }] })
  bootloader := some [0x55]
  otaJson := none
  app := some [0xAA]
  sysPersist4k := none

/-- The bootloader is not followed by its padding. -/
theorem unpadded_without_crc : ∃ image,
    buildImage unpaddedFiles = .ok (some image) ∧
      buildBootloaderImage [0x55] unpaddedFiles.otaJson = .ok [0x55] ∧
      (image.drop 0).take (padGroups 0xFF [0x55]).length ≠ padGroups 0xFF [0x55] :=
  ⟨[0x55, 0xAA] ++ imageTail, by rfl, by rfl, by decide⟩

end Tools

end ArduinoBeken
