import ArduinoBeken.Tools.FlashImage

/-!
# The Partition Table

The generator reads `auto_partitions.csv` line by line: settings, and
partitions whose offset may be left to follow the partition before. It checks
alignment, overlaps and the capacity of the flash, names the code partitions
after what they hold, and writes the sections of `bk_package.json`.

Every check ends the run with an error. The settings about encryption are
carried along by the source and read by nothing here.

## Main definitions

* `parseFormatSize`, `formatSize`: Sizes as text.
* `Partition`, `PartitionsTable`: The table.
* `parseAutoPartitionTable`: The lines, one after the other.
* `checkPartitionValid`: The checks.
* `genPackJson`: The sections of the package.
* `generatePartitions`: The generator.

## Theorems

* `parseSize_formatSize`: A size written by the generator is read by the
  builder.
* `app_section`: The section of the application, and no other, is `app.bin`.
-/

namespace ArduinoBeken

namespace Tools

/-! ### Sizes -/

/-- `parse_format_size`. -/
def parseFormatSize (sizeStr : List Char) : Except PyError Int :=
  let s := upper (strip sizeStr)
  let number (count : Nat) : List Char := s.take (s.length - count)
  if endsWith s ['K'] then orValueError ((pyInt 10 (number 1)).map (· * 1024))
  else if endsWith s ['M'] then orValueError ((pyInt 10 (number 1)).map (· * 1024 * 1024))
  else if endsWith s ['G'] then orValueError ((pyInt 10 (number 1)).map (· * 1024 * 1024 * 1024))
  else if endsWith s ['K', 'B'] then
    orValueError ((pyInt 10 (strip (number 2))).map (· * 1024))
  else if endsWith s ['M', 'B'] then
    orValueError ((pyInt 10 (strip (number 2))).map (· * 1024 * 1024))
  else if endsWith s ['G', 'B'] then
    orValueError ((pyInt 10 (strip (number 2))).map (· * 1024 * 1024 * 1024))
  else if endsWith s ['B'] then orValueError (pyInt 10 (number 1))
  else orValueError (pyInt 10 s)

/-- `format_size`. -/
def formatSize (size : Int) : List Char :=
  if size % 0x100000 = 0 then decimal (size / 0x100000) ++ ['M']
  else if size % 0x400 = 0 then decimal (size / 0x400) ++ ['K']
  else decimal size

/-! ### The table -/

/-- A row of the table with its place. -/
structure Partition where
  id : Nat
  name : List Char
  offset : Int
  size : Int
  execute : Bool
  read : Bool
  write : Bool
deriving DecidableEq, Repr

/-- The state of reading the table. -/
structure PartitionsTable where
  crcEnable : Bool
  flashSize : Int
  cumulativeOffset : Int := 0
  partitions : List Partition := []
deriving DecidableEq, Repr

/-- The check every partition makes when it is created. -/
def newPartition (p : Partition) : Except PyError Partition :=
  if p.size = 0 ∨ p.size % 1024 ≠ 0 then .error .valueError else .ok p

/-- The error of a line without its columns. -/
def lineInvalid (line : List Char) : PyError :=
  .runtimeError ("auto partition config table invalid, line:\n" ++ String.ofList line)

/-- The error of an unknown kind of partition. -/
def typeNotSupported (mode : List Char) : PyError :=
  .runtimeError ("not support type: " ++ String.ofList mode)

/-- Whether a partition has code, in any letter case. -/
def parseMode (mode : List Char) : Except PyError Bool :=
  if lower mode = "code".toList then .ok true
  else if lower mode = "data".toList then .ok false
  else .error (typeNotSupported mode)

/-- `_parse_partition_line`. -/
def parsePartitionLine (table : PartitionsTable) (line : List Char) :
    Except PyError PartitionsTable :=
  match (splitOn ',' line).map strip with
  | name :: offsetStr :: sizeStr :: mode :: readStr :: writeStr :: _ => do
      -- without an offset the partition follows the one before it
      let offset ← if offsetStr = [] then .ok table.cumulativeOffset
        else orValueError (pyInt 16 offsetStr)
      let size ← parseFormatSize sizeStr
      let execute ← parseMode mode
      let part ← newPartition
        { id := table.partitions.length, name, offset, size, execute
          read := lower readStr = "true".toList
          write := lower writeStr = "true".toList }
      .ok { table with
        cumulativeOffset := offset + size
        partitions := table.partitions ++ [part] }
  | _ => .error (lineInvalid line)

/-- What follows the first equals sign, up to the next. -/
def settingValue (line : List Char) : Except PyError (List Char) :=
  match splitOn '=' line with
  | _ :: value :: _ => .ok value
  | _ => .error .indexError

/-- The value of a switch; `none` for one that is not understood. -/
def parseSwitch (value : List Char) : Option Bool :=
  let v := upper (strip value)
  if v = "TRUE".toList ∨ v = ['1'] then some true
  else if v = "FALSE".toList ∨ v = ['0'] then some false
  else none

/-- A line that starts with a variable. -/
def isVariable : List Char → Bool
  | '$' :: c :: _ => c.isAlpha || c == '_'
  | _ => false

/-- A line to be skipped by every reader. -/
def isCommentOrEmpty (line : List Char) : Bool :=
  startsWith line ['#'] || line.isEmpty

/-- The error of a line with an empty column. -/
def formatError (line : List Char) : PyError :=
  .runtimeError ("auto partition table format error, line:\n" ++ String.ofList line)

/-- One line of the table. -/
def parseTableLine (table : PartitionsTable) (rawLine : List Char) :
    Except PyError PartitionsTable :=
  let line := strip rawLine
  if isCommentOrEmpty line then .ok table
  -- settings stand in lines of their own, in front of the partitions
  else if contains line "FLASH_CAPACITY".toList then do
    .ok { table with flashSize := ← parseFormatSize (← settingValue line) }
  else if contains line "FLASH_CRC_ENABLE".toList then do
    match parseSwitch (← settingValue line) with
    | some enable => .ok { table with crcEnable := enable }
    | none => .ok table
  else if contains line "FLASH_AES_ENABLE".toList then .ok table
  else if contains line "FLASH_AES_KEY".toList then .ok table
  else if isVariable line then .error (formatError line)
  else parsePartitionLine table line

/-- `_parse_auto_partition_table`. -/
def parseAutoPartitionTable (csv : List Char) (table : PartitionsTable) :
    Except PyError PartitionsTable :=
  (splitLines csv).foldlM parseTableLine table

/-! ### The checks -/

/-- The error of a partition that is not aligned. -/
def alignError (name : List Char) : PyError :=
  .runtimeError (String.ofList name ++ " partition align error")

/-- `check_align`. -/
def checkAlign (name : List Char) (num align : Int) : Except PyError Unit :=
  if num % align ≠ 0 then .error (alignError name) else .ok ()

/-- `_check_offset_and_size_valid` of one partition. -/
def checkPartitionAlign (crcEnable : Bool) (p : Partition) : Except PyError Unit := do
  checkAlign p.name p.offset 0x1000
  checkAlign p.name p.size 0x1000
  if crcEnable && p.execute then do
    checkAlign p.name p.offset (1024 * 34)
    checkAlign p.name p.size (1024 * 34)
  else .ok ()

/-- Python's order on pairs. -/
def pairLe (a b : Int × Int) : Prop :=
  a.1 < b.1 ∨ (a.1 = b.1 ∧ a.2 ≤ b.2)

instance : DecidableRel pairLe := fun a b => by
  unfold pairLe
  infer_instance

/-- A neighbour begins before the one in front of it ends. -/
def neighboursOverlap : List (Int × Int) → Bool
  | a :: b :: rest => b.1 < a.2 || neighboursOverlap (b :: rest)
  | _ => false

/-- `check_overlaps` of the intervals. -/
def checkOverlaps (partitions : List Partition) : Bool :=
  neighboursOverlap
    ((partitions.map fun p => (p.offset, p.offset + p.size)).insertionSort pairLe)

/-- The error of a partition beyond the end of the flash. -/
def outOfFlash (name : List Char) : PyError :=
  .runtimeError (String.ofList name ++ " partition out of flash size")

/-- `check_bound`. -/
def checkBound (flashSize : Int) (p : Partition) : Except PyError Unit :=
  if p.offset + p.size > flashSize then .error (outOfFlash p.name) else .ok ()

/-- `_check_partition_valid`. -/
def checkPartitionValid (table : PartitionsTable) : Except PyError Unit := do
  table.partitions.forM (checkPartitionAlign table.crcEnable)
  if checkOverlaps table.partitions then
    .error (.runtimeError "partition table config overlaps")
  else table.partitions.forM (checkBound table.flashSize)

/-- `bk_partitions_table`, the table with its checks. -/
def readPartitionsTable (csv : List Char) (crcEnable : Bool) (flashSize : Int) :
    Except PyError PartitionsTable := do
  let table ← parseAutoPartitionTable csv { crcEnable, flashSize }
  checkPartitionValid table
  .ok table

/-! ### The generator -/

/-- A partition that has to stand at this place of the table. -/
structure PartitionLimit where
  name : List Char
  index : Nat

/-- The settings file of the generator. -/
def partitionsLimit : List PartitionLimit :=
  [⟨"primary_bootloader".toList, 0⟩, ⟨"primary_cpu0_app".toList, 1⟩]

/-- The names that the SDK knows, with the spelling of the source. -/
def internelPartitions : List (List Char) :=
  ["primary_bootloader".toList, "primary_cpu0_app".toList, "primary_cpu1_app".toList,
    "primary_cpu2_app".toList, "sys_rf".toList, "sys_net".toList, "ota".toList,
    "usr_config".toList, "easyflash".toList]

/-- `set_default_setting` for one limit: the first partition of that name. -/
def checkLimit (partitions : List Partition) (limit : PartitionLimit) : Except PyError Unit :=
  match partitions.findIdx? (·.name = limit.name) with
  | none => .error (.runtimeError (String.ofList limit.name ++ " is not exists"))
  | some index =>
      if index = limit.index then .ok ()
      else .error (.runtimeError (String.ofList limit.name ++ " index error"))

/-- The identity numbers `sort_partitions` gives: the place among the reserved
names for the first partition of such a name, and the next free number for
every other. -/
def sortPartitions (partitions : List Partition) : List Partition :=
  let reserved (i : Nat) (p : Partition) : Option Nat :=
    if partitions.findIdx? (·.name = p.name) = some i then
      internelPartitions.findIdx? (· = p.name)
    else none
  let number (st : Nat × List Partition) (ip : Partition × Nat) : Nat × List Partition :=
    match reserved ip.2 ip.1 with
    | some id => (st.1, st.2 ++ [{ ip.1 with id := id }])
    | none => (st.1 + 1, st.2 ++ [{ ip.1 with id := st.1 }])
  (partitions.zipIdx.foldl number (internelPartitions.length, [])).2

/-- What a code partition holds. -/
inductive CodeName where
  | bootloader
  | application (index : Nat)
deriving DecidableEq, Repr

/-- The name in the package. -/
def CodeName.packName : CodeName → List Char
  | .bootloader => "bootloader".toList
  | .application n => "app".toList ++ if n = 0 then [] else decimal n

/-- A partition of code with that word in its name. -/
def isBootloader (p : Partition) : Bool :=
  contains p.name "bootloader".toList && p.execute

/-- `_part_adapter`: the code partitions with what they hold, in the order of
the table. -/
def partAdapter : Nat → List Partition → List (CodeName × Partition)
  | _, [] => []
  | appCount, p :: ps =>
    if isBootloader p then (.bootloader, p) :: partAdapter appCount ps
    else if p.execute then (.application appCount, p) :: partAdapter (appCount + 1) ps
    else partAdapter appCount ps

/-- The section of a code partition. -/
def packSectionOf (named : CodeName × Partition) : PackSection where
  firmware := some (named.1.packName ++ ".bin".toList)
  startAddr := some (hexadecimal named.2.offset)
  size := some (formatSize named.2.size)

/-- `gen_pack_json`: the code partitions by identity number, then by offset. -/
def genPackJson (table : PartitionsTable) : PackJson where
  crcEnable := table.crcEnable
  sections :=
    let named := (partAdapter 0 table.partitions).insertionSort fun a b => a.2.id ≤ b.2.id
    some ((named.insertionSort fun a b => a.2.offset ≤ b.2.offset).map packSectionOf)

/-- `_read_flash_crc_enable_from_csv`: the first line that names the switch. -/
def readFlashCrcEnable (csv : List Char) : Bool :=
  let named := ((splitLines csv).map strip).find? fun line =>
    !isCommentOrEmpty line && contains line "FLASH_CRC_ENABLE".toList
  match named with
  | none => true
  | some line =>
    match settingValue line with
    | .error _ => true
    | .ok value => (parseSwitch value).getD true

/-- `str.isdigit` of a text that `int` accepts. -/
def isDigits (s : List Char) : Bool :=
  !s.isEmpty && s.all fun c => (toAsciiDigit c).isDigit

/-- `_read_partition_size_kb_from_auto_partitions_csv`. -/
def readPartitionSizeKb (csv name : List Char) : Option Int :=
  let columns := (((splitLines csv).map strip).filter fun line =>
      !isCommentOrEmpty line && !(contains line ['='] && !contains line [','])).map
    fun line => (splitOn ',' line).map strip
  match columns.find? fun cols => 3 ≤ cols.length && cols.head? == some name with
  | some (_ :: _ :: sizeStr :: _) =>
      let s := if endsWith sizeStr ['k'] || endsWith sizeStr ['K'] then strip sizeStr.dropLast
        else sizeStr
      if isDigits s then pyInt 10 s else none
  | _ => none

/-- `_check_primary_bootloader_size_alignment`. -/
def checkBootloaderAlignment (csv : List Char) (crcEnable : Bool) : Except PyError Unit :=
  match readPartitionSizeKb csv "primary_bootloader".toList with
  | none => .error (.systemExit "1")
  | some sizeKb =>
      if sizeKb % (if crcEnable then 68 else 64) ≠ 0 then .error (.systemExit "1") else .ok ()

/-- What the generator leaves behind: the table and the package. -/
structure Generated where
  table : PartitionsTable
  pack : PackJson

/-- The generator, with the capacity of its settings file. -/
def generatePartitions (csv : List Char) : Except PyError Generated := do
  let crcEnable := readFlashCrcEnable csv
  checkBootloaderAlignment csv crcEnable
  let table ← readPartitionsTable csv crcEnable (8 * 1024 * 1024)
  partitionsLimit.forM (checkLimit table.partitions)
  let table := { table with partitions := sortPartitions table.partitions }
  .ok { table, pack := genPackJson table }

/-! ### Sizes written and read -/

theorem upper_digits (n : Nat) : upper (Nat.toDigits 10 n) = Nat.toDigits 10 n := by
  have h : upper (Nat.toDigits 10 n) = (Nat.toDigits 10 n).map id := by
    refine List.map_congr_left fun c hc => ?_
    have hrange := digit_range c (toDigits_digits n c hc)
    rw [Char.toUpper, dif_neg]
    · rfl
    · rintro ⟨hlow, -⟩
      have hlow' : 97 ≤ c.toNat := UInt32.le_iff_toNat_le.1 hlow
      omega
  rw [h, List.map_id]

theorem upper_decimal (n : Int) : upper (decimal n) = decimal n := by
  cases n with
  | ofNat n => exact upper_digits n
  | negSucc n =>
      rw [decimal, upper, List.map_cons, ← upper, upper_digits]
      rfl

theorem decimal_not_space (n : Int) : ∀ c ∈ decimal n, isSpace c = false := by
  cases n with
  | ofNat n => exact fun c hc => digit_not_space c (toDigits_digits n c hc)
  | negSucc n =>
      intro c hc
      rcases List.mem_cons.1 hc with rfl | hc
      · decide
      · exact digit_not_space c (toDigits_digits (n + 1) c hc)

/-- A number with a unit is left alone by stripping and upper case. -/
theorem upper_strip_unit (n : Int) (unit : Char) (hspace : isSpace unit = false)
    (hupper : unit.toUpper = unit) :
    upper (strip (decimal n ++ [unit])) = decimal n ++ [unit] := by
  have hall : ∀ c ∈ decimal n ++ [unit], isSpace c = false := by
    intro c hc
    rcases List.mem_append.1 hc with hc | hc
    · exact decimal_not_space n c hc
    · rw [List.mem_singleton.1 hc]
      exact hspace
  rw [strip_eq_self _ hall, upper, List.map_append, ← upper, upper_decimal]
  simp only [List.map_cons, List.map_nil, hupper]

theorem endsWith_unit (s : List Char) (c d : Char) : endsWith (s ++ [c]) [d] = (d == c) := by
  simp [endsWith, List.isSuffixOf, List.isPrefixOf]

/-- A size of whole kilobytes that the generator writes is read by the builder. -/
theorem parseSize_formatSize (size : Int) (h : size % 1024 = 0) :
    parseSize (formatSize size) = some size := by
  unfold formatSize
  by_cases hmega : size % 0x100000 = 0
  · rw [if_pos hmega, parseSize, upper_strip_unit _ 'M' (by decide) (by decide)]
    simp only [endsWith_unit, List.dropLast_concat, pyInt_decimal]
    have hsize : size / 0x100000 * 1024 * 1024 = size := by omega
    simp [hsize]
  · rw [if_neg hmega, if_pos h, parseSize, upper_strip_unit _ 'K' (by decide) (by decide)]
    simp only [endsWith_unit, List.dropLast_concat, pyInt_decimal]
    have hsize : size / 0x400 * 1024 = size := by omega
    simp [hsize]

/-! ### The application -/

/-- The partition that becomes the application: the first code partition that
is not named after the bootloader. -/
def applicationPartition (partitions : List Partition) : Option Partition :=
  partitions.find? fun p => p.execute && !isBootloader p

theorem not_first_application (appCount : Nat) (ps : List Partition) (p : Partition)
    (h : 0 < appCount) : (CodeName.application 0, p) ∉ partAdapter appCount ps := by
  -- the count only goes up, so the first number is not given again
  induction ps generalizing appCount with
  | nil => simp [partAdapter]
  | cons q ps ih =>
      unfold partAdapter
      by_cases hboot : isBootloader q = true
      · rw [if_pos hboot]
        intro hmem
        rcases List.mem_cons.1 hmem with heq | hmem
        · exact absurd (congrArg Prod.fst heq) (by simp)
        · exact ih appCount h hmem
      · rw [if_neg hboot]
        by_cases hexec : q.execute = true
        · rw [if_pos hexec]
          intro hmem
          rcases List.mem_cons.1 hmem with heq | hmem
          · have hcount := congrArg Prod.fst heq
            simp only [CodeName.application.injEq] at hcount
            omega
          · exact ih (appCount + 1) (by omega) hmem
        · rw [if_neg hexec]
          exact ih appCount h

/-- Only the application partition is named the first application. -/
theorem first_application_iff (ps : List Partition) (p : Partition) :
    (CodeName.application 0, p) ∈ partAdapter 0 ps ↔ applicationPartition ps = some p := by
  induction ps with
  | nil => simp [partAdapter, applicationPartition]
  | cons q ps ih =>
      unfold partAdapter applicationPartition
      -- a bootloader gets a name of its own
      by_cases hboot : isBootloader q = true
      · rw [if_pos hboot, List.find?_cons_of_neg (by simp [hboot]), List.mem_cons]
        refine ⟨fun hmem => ?_, fun hfind => Or.inr (ih.2 hfind)⟩
        rcases hmem with heq | hmem
        · exact absurd (congrArg Prod.fst heq) (by simp)
        · exact ih.1 hmem
      · rw [if_neg hboot]
        -- the first that executes gets the number 0, and no later one does
        by_cases hexec : q.execute = true
        · rw [if_pos hexec, List.find?_cons_of_pos (by simp [hboot, hexec]), List.mem_cons]
          refine ⟨fun hmem => ?_, fun hfind => ?_⟩
          · rcases hmem with heq | hmem
            · rw [Prod.mk.injEq] at heq
              rw [heq.2]
            · exact absurd hmem (not_first_application 1 ps p (by omega))
          · cases hfind
            exact Or.inl rfl
        · rw [if_neg hexec, List.find?_cons_of_neg (by simp [hexec])]
          exact ih

theorem decimal_natCast (n : Nat) : decimal (n : Int) = Nat.toDigits 10 n := rfl

theorem packName_first : (CodeName.application 0).packName ++ ".bin".toList = appBin := by
  decide

theorem packName_application (n : Nat) : (CodeName.application n).packName =
    "app".toList ++ if n = 0 then [] else decimal n :=
  rfl

/-- A number follows where the dot would have to be. -/
theorem packName_later (n : Nat) (hn : n ≠ 0) :
    (CodeName.application n).packName ++ ".bin".toList ≠ appBin := by
  intro h
  have hlength := congrArg List.length h
  have hdigits := Nat.length_toDigits_pos (b := 10) (n := n)
  have hbin : ".bin".toList.length = 4 := by decide
  have happ : "app".toList.length = 3 := by decide
  have hall : appBin.length = 7 := by decide
  rw [packName_application, if_neg hn, decimal_natCast, List.length_append,
    List.length_append] at hlength
  omega

/-- The application is the only firmware called `app.bin`. -/
theorem packName_app (name : CodeName) :
    name.packName ++ ".bin".toList = appBin ↔ name = .application 0 := by
  cases name with
  | bootloader => exact iff_of_false (by decide) (by simp)
  | application n =>
      by_cases hn : n = 0
      · subst hn
        exact iff_of_true packName_first (Eq.refl _)
      · refine iff_of_false (packName_later n hn) (fun h => hn ?_)
        exact CodeName.application.inj h

/-- The sections of a package are those of its code partitions. -/
theorem mem_sections (table : PartitionsTable) (s : PackSection) :
    (∃ sections, (genPackJson table).sections = some sections ∧ s ∈ sections) ↔
      ∃ named ∈ partAdapter 0 table.partitions, packSectionOf named = s := by
  simp only [genPackJson, Option.some.injEq, exists_eq_left', List.mem_map,
    List.mem_insertionSort]

/-- The section of the application, and no other, is `app.bin`. -/
theorem app_section (table : PartitionsTable) (s : PackSection) :
    (∃ sections, (genPackJson table).sections = some sections ∧ s ∈ sections) ∧
        s.firmware = some appBin ↔
      ∃ p, applicationPartition table.partitions = some p ∧
        s = packSectionOf (.application 0, p) := by
  rw [mem_sections]
  constructor
  · rintro ⟨⟨⟨name, p⟩, hmem, rfl⟩, hfirmware⟩
    have hname : name = .application 0 := (packName_app name).1 (Option.some.inj hfirmware)
    subst hname
    exact ⟨p, (first_application_iff _ p).1 hmem, rfl⟩
  · rintro ⟨p, hp, rfl⟩
    exact ⟨⟨_, (first_application_iff _ p).2 hp, rfl⟩, rfl⟩

/-! ### What the checks leave -/

theorem forM_ok {α : Type} (f : α → Except PyError Unit) (as : List α)
    (h : as.forM f = .ok ()) : ∀ a ∈ as, f a = .ok () := by
  induction as with
  | nil => exact fun a ha => absurd ha (by simp)
  | cons b as ih =>
      unfold List.forM at h
      rcases (Stages.bind_eq_ok _ _ _).1 h with ⟨u, hu, hrest⟩
      intro a ha
      rcases List.mem_cons.1 ha with rfl | ha
      · exact hu
      · exact ih hrest a ha

theorem checkAlign_ok (name : List Char) (num align : Int) (u : Unit)
    (h : checkAlign name num align = .ok u) : num % align = 0 := by
  unfold checkAlign at h
  by_cases hnum : num % align ≠ 0
  · rw [if_pos hnum] at h
    exact absurd h (by simp)
  · simpa using hnum

/-- A code partition that passes the checks lies on multiples of 34 KB under
CRC. -/
theorem checkPartitionAlign_ok (p : Partition) (hexec : p.execute = true)
    (h : checkPartitionAlign true p = .ok ()) :
    p.offset % (1024 * 34) = 0 ∧ p.size % (1024 * 34) = 0 := by
  unfold checkPartitionAlign at h
  rcases (Stages.bind_eq_ok _ _ _).1 h with ⟨_, -, h₁⟩
  rcases (Stages.bind_eq_ok _ _ _).1 h₁ with ⟨_, -, h₂⟩
  rw [hexec, if_pos (by rfl)] at h₂
  rcases (Stages.bind_eq_ok _ _ _).1 h₂ with ⟨_, hoffset, h₃⟩
  exact ⟨checkAlign_ok _ _ _ _ hoffset, checkAlign_ok _ _ _ _ h₃⟩

end Tools

end ArduinoBeken
