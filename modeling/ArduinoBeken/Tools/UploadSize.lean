import ArduinoBeken.Tools.PartitionTable

/-!
# The Upload Limit

`boards.txt` limits the size of a sketch. The limit is read from
`auto_partitions.csv` by a reader of its own, with the quoting of CSV and its
own notation of sizes, and is the size of the application partition. The
builder then stores a sketch in groups of 34 bytes for 32, behind a prefix if
there is one, so a sketch within the limit need not fit.

## Main definitions

* `csvRow`: One row of a CSV file.
* `readAutoPartitionValues`: The capacity and the limit.
* `AppFits`: The builder accepts the application.
* `LimitAgrees`: It accepts an application within the limit.

## Theorems

* `appFits_iff`: The builder accepts 32 bytes for each 34 of the partition.
* `limitAgrees_iff`: When a limit agrees with that.
-/

namespace ArduinoBeken

namespace Tools

/-! ### Reading the limit -/

/-- `parse_size_to_bytes`. -/
def parseSizeToBytes (value : List Char) : Except PyError Int :=
  let raw := upper (strip value)
  let raw := if endsWith raw ['K', 'B'] then raw.dropLast else raw
  let raw := if endsWith raw ['M', 'B'] then raw.dropLast else raw
  if endsWith raw ['K'] then orValueError ((pyInt 10 raw.dropLast).map (· * 1024))
  else if endsWith raw ['M'] then orValueError ((pyInt 10 raw.dropLast).map (· * 1024 * 1024))
  else orValueError (pyInt 0 raw)

/-- `normalize_flash_size_label`. -/
def normalizeFlashSizeLabel (value : List Char) : List Char :=
  let raw := upper (strip value)
  if endsWith raw ['M', 'B'] || endsWith raw ['K', 'B'] then raw
  else if endsWith raw ['M'] || endsWith raw ['K'] then raw ++ ['B']
  else raw

/-- Where the reader of a CSV row is in a field. -/
inductive CsvState where
  | startField
  | inField
  | inQuoted
  | quoteInQuoted
deriving DecidableEq, Repr

/-- The fields of a row, from the state and the field read so far. -/
def csvFields (state : CsvState) (field : List Char) : List Char → List (List Char)
  | [] => [field]
  | c :: cs =>
    match state with
    | .startField =>
        if c = '"' then csvFields .inQuoted field cs
        else if c = ',' then field :: csvFields .startField [] cs
        else csvFields .inField (field ++ [c]) cs
    | .inField =>
        if c = ',' then field :: csvFields .startField [] cs
        else csvFields .inField (field ++ [c]) cs
    | .inQuoted =>
        if c = '"' then csvFields .quoteInQuoted field cs
        else csvFields .inQuoted (field ++ [c]) cs
    | .quoteInQuoted =>
        if c = '"' then csvFields .inQuoted (field ++ [c]) cs
        else if c = ',' then field :: csvFields .startField [] cs
        else csvFields .inField (field ++ [c]) cs

/-- `next(csv.reader([line]))` of a line that is not empty. -/
def csvRow (line : List Char) : List (List Char) :=
  csvFields .startField [] line

/-- The names of the application's partition, in the order in which they are looked for. -/
def appPartitionNames : List (List Char) :=
  ["primary_cpu0_app".toList, "primary_app".toList, "app".toList]

/-- The key and the value of a setting. -/
def keyValue (line : List Char) : List Char × List Char :=
  (strip (line.takeWhile (· ≠ '=')), strip ((line.dropWhile (· ≠ '=')).drop 1))

/-- The error of a table without one. -/
def noAppPartition : PyError :=
  .systemExit "Unable to determine app partition size"

/-- `read_auto_partition_values`, from the capacity read so far: the first row
of an application ends it. -/
def readValuesFrom (flashSize : List Char) :
    List (List Char) → Except PyError (List Char × Int)
  | [] => .error noAppPartition
  | rawLine :: lines =>
    let line := strip rawLine
    if line.isEmpty || startsWith line ['#'] then readValuesFrom flashSize lines
    else if contains line ['='] then
      let (key, value) := keyValue line
      if key = "FLASH_CAPACITY".toList then readValuesFrom (normalizeFlashSizeLabel value) lines
      else readValuesFrom flashSize lines
    else
      match csvRow line with
      | name :: _ :: sizeStr :: _ =>
          if appPartitionNames.contains name then do
            .ok (flashSize, ← parseSizeToBytes sizeStr)
          else readValuesFrom flashSize lines
      | _ => readValuesFrom flashSize lines

/-- `read_auto_partition_values`: the flash size and the upload limit. -/
def readAutoPartitionValues (csv : List Char) : Except PyError (List Char × Int) :=
  readValuesFrom "4MB".toList (splitLines csv)

/-! ### What fits -/

/-- The builder does not refuse the application for its size. -/
def AppFits (pack : PackJson) (work : WorkFiles) : Prop :=
  ∀ sections, pack.sections = some sections → ∀ s ∈ sections, s.firmware = some appBin →
    packSection pack.crcEnable work s ≠ .error (overPartition appBin)

/-- The bytes in front of the application. -/
def prefixLength (sysPersist4k : Option (List UInt8)) : Nat :=
  match sysPersist4k with
  | some persist => persist.length
  | none => 0

theorem buildAppImage_length (app : List UInt8) (sysPersist4k : Option (List UInt8)) :
    (buildAppImage app sysPersist4k).length = prefixLength sysPersist4k + app.length := by
  cases sysPersist4k with
  | none => simp [buildAppImage, prefixLength]
  | some persist => simp [buildAppImage, prefixLength]

/-- A section is refused for its size exactly when the stored bytes exceed it. -/
theorem packSection_over_iff (work : WorkFiles) (p : Partition) (h : p.size % 1024 = 0) :
    packSection true work (packSectionOf (.application 0, p)) = .error (overPartition appBin) ↔
      p.size < (bkCrc16 work.app).length := by
  have hget : work.get appBin = .ok work.app := by
    rw [WorkFiles.get, if_neg (by decide), if_pos rfl]
  have hsize : parseSize (formatSize p.size) = some p.size := parseSize_formatSize p.size h
  have hpack : packSection true work (packSectionOf (.application 0, p)) =
      if ((bkCrc16 work.app).length : Int) > p.size then .error (overPartition appBin)
      else (packSectionOf (.application 0, p)).address >>= fun a => .ok (a, bkCrc16 work.app) := by
    simp only [packSection, field, packSectionOf, packName_first, bind, Except.bind, hget,
      packedData, orValueError, hsize, if_true]
  rw [hpack]
  by_cases hover : ((bkCrc16 work.app).length : Int) > p.size
  · rw [if_pos hover]
    exact iff_of_true rfl hover
  · rw [if_neg hover]
    refine iff_of_false (fun herror => ?_) hover
    -- only the address can fail now, and that is another error
    simp only [PackSection.address, packSectionOf, field, bind, Except.bind] at herror
    cases haddress : pyInt 16 (hexadecimal p.offset) with
    | none =>
        rw [haddress] at herror
        simp [orValueError, overPartition] at herror
    | some a =>
        rw [haddress] at herror
        simp [orValueError] at herror

/-- The builder accepts an application exactly when it and its prefix are at
most 32 bytes for each 34 of the partition. -/
theorem appFits_iff (table : PartitionsTable) (p : Partition) (work : WorkFiles)
    (hcrc : table.crcEnable = true)
    (happ : applicationPartition table.partitions = some p) (hsize : p.size % (1024 * 34) = 0) :
    AppFits (genPackJson table) work ↔ (work.app.length : Int) ≤ p.size / 34 * 32 := by
  have hkilo : p.size % 1024 = 0 := by omega
  have hover := packSection_over_iff work p hkilo
  have harith : ¬ p.size < ((bkCrc16 work.app).length : Int) ↔
      (work.app.length : Int) ≤ p.size / 34 * 32 := by
    rw [bkCrc16_length]
    omega
  rw [← harith, ← hover, AppFits]
  have hcrc' : (genPackJson table).crcEnable = true := hcrc
  rw [hcrc']
  constructor
  · intro hfits
    rcases (app_section table _).2 ⟨p, happ, rfl⟩ with ⟨⟨sections, hsections, hmem⟩, hfirmware⟩
    exact hfits sections hsections _ hmem hfirmware
  · intro hfits sections hsections s hmem hfirmware
    rcases (app_section table s).1 ⟨⟨sections, hsections, hmem⟩, hfirmware⟩ with ⟨q, hq, rfl⟩
    rw [happ] at hq
    cases hq
    exact hfits

/-! ### What the generator accepts -/

/-- The identity numbers change, the rest of a partition does not. -/
theorem mem_sortPartitions (ps : List Partition) (p : Partition) (h : p ∈ sortPartitions ps) :
    ∃ q ∈ ps, ∃ id, p = { q with id := id } := by
  unfold sortPartitions at h
  -- what has been numbered so far comes from the partitions
  have hfold : ∀ (ips : List (Partition × Nat)) (f : Nat × List Partition → Partition × Nat →
      Nat × List Partition) (st : Nat × List Partition),
      (∀ st ip, ∃ id, (f st ip).2 = st.2 ++ [{ ip.1 with id := id }]) →
      (∀ ip ∈ ips, ip.1 ∈ ps) → (∀ r ∈ st.2, ∃ q ∈ ps, ∃ id, r = { q with id := id }) →
      ∀ r ∈ (ips.foldl f st).2, ∃ q ∈ ps, ∃ id, r = { q with id := id } := by
    intro ips f st hf
    induction ips generalizing st with
    | nil => exact fun _ hst => hst
    | cons ip ips ih =>
        intro hips hst
        refine ih (f st ip) (fun ip' hip' => hips ip' (List.mem_cons_of_mem ip hip')) ?_
        intro r hr
        rcases hf st ip with ⟨id, hid⟩
        rw [hid] at hr
        rcases List.mem_append.1 hr with hr | hr
        · exact hst r hr
        · exact ⟨ip.1, hips ip (List.mem_cons_self ..), id, List.mem_singleton.1 hr⟩
  refine hfold _ _ _ ?_ ?_ ?_ p h
  · intro st ip
    simp only
    split
    · exact ⟨_, rfl⟩
    · exact ⟨_, rfl⟩
  · exact fun ip hip => List.fst_mem_of_mem_zipIdx hip
  · exact fun r hr => absurd hr (by simp)

/-- The application of an accepted table is a multiple of 34 KB under CRC. -/
theorem generated_size (csv : List Char) (g : Generated) (p : Partition)
    (hgen : generatePartitions csv = .ok g) (hcrc : g.table.crcEnable = true)
    (happ : applicationPartition g.table.partitions = some p) : p.size % (1024 * 34) = 0 := by
  unfold generatePartitions at hgen
  rcases (Stages.bind_eq_ok _ _ _).1 hgen with ⟨_, -, h₁⟩
  rcases (Stages.bind_eq_ok _ _ _).1 h₁ with ⟨table, htable, h₂⟩
  rcases (Stages.bind_eq_ok _ _ _).1 h₂ with ⟨_, -, h₃⟩
  cases h₃
  unfold readPartitionsTable at htable
  rcases (Stages.bind_eq_ok _ _ _).1 htable with ⟨table', -, h₄⟩
  rcases (Stages.bind_eq_ok _ _ _).1 h₄ with ⟨_, hvalid, h₅⟩
  cases h₅
  unfold checkPartitionValid at hvalid
  rcases (Stages.bind_eq_ok _ _ _).1 hvalid with ⟨_, halign, -⟩
  have hexec : p.execute = true := by
    have hfound := List.find?_some happ
    simp only [Bool.and_eq_true] at hfound
    exact hfound.1
  rcases mem_sortPartitions _ p (List.mem_of_find?_eq_some happ) with ⟨q, hq, id, rfl⟩
  have hcheck := forM_ok _ _ halign q hq
  simp only at hcrc
  rw [hcrc] at hcheck
  exact (checkPartitionAlign_ok q hexec hcheck).2

/-- A partition scheme: a table the generator accepts, with CRC, whose
application partition has a name that the limit is looked for under, and the
limit. -/
structure Scheme (csv : List Char) (g : Generated) (p : Partition) (limit : Int) : Prop where
  accepted : generatePartitions csv = .ok g
  crc : g.table.crcEnable = true
  application : applicationPartition g.table.partitions = some p
  named : p.name ∈ appPartitionNames
  limited : ∃ flashSize, readAutoPartitionValues csv = .ok (flashSize, limit)

/-- The builder accepts the application if it is within the limit. -/
def LimitAgrees (g : Generated) (limit : Int) (bootloader app : List UInt8)
    (sysPersist4k : Option (List UInt8)) : Prop :=
  (app.length : Int) ≤ limit →
    AppFits g.pack { bootloader := bootloader, app := buildAppImage app sysPersist4k }

/-- What the builder accepts in a scheme. -/
theorem scheme_fits_iff (csv : List Char) (g : Generated) (p : Partition) (limit : Int)
    (h : Scheme csv g p limit) (bootloader app : List UInt8) (sysPersist4k : Option (List UInt8)) :
    AppFits g.pack { bootloader := bootloader, app := buildAppImage app sysPersist4k } ↔
      (prefixLength sysPersist4k + app.length : Int) ≤ p.size / 34 * 32 := by
  have hpack : g.pack = genPackJson g.table := by
    have hgen := h.accepted
    unfold generatePartitions at hgen
    rcases (Stages.bind_eq_ok _ _ _).1 hgen with ⟨_, -, h₁⟩
    rcases (Stages.bind_eq_ok _ _ _).1 h₁ with ⟨_, -, h₂⟩
    rcases (Stages.bind_eq_ok _ _ _).1 h₂ with ⟨_, -, h₃⟩
    cases h₃
    rfl
  have hsize := generated_size csv g p h.accepted h.crc h.application
  rw [hpack, appFits_iff g.table p _ h.crc h.application hsize, buildAppImage_length]
  push_cast
  exact Iff.rfl

/-- In a scheme the limit agrees with the builder about an application exactly
when the application exceeds the limit, or with its prefix is at most 32 bytes
for each 34 of the partition. -/
theorem limitAgrees_iff (csv : List Char) (g : Generated) (p : Partition) (limit : Int)
    (h : Scheme csv g p limit) (bootloader app : List UInt8) (sysPersist4k : Option (List UInt8)) :
    LimitAgrees g limit bootloader app sysPersist4k ↔
      limit < app.length ∨
        (prefixLength sysPersist4k + app.length : Int) ≤ p.size / 34 * 32 := by
  rw [LimitAgrees, scheme_fits_iff csv g p limit h]
  by_cases hlimit : (app.length : Int) ≤ limit
  · refine ⟨fun hfits => Or.inr (hfits hlimit), fun hor _ => ?_⟩
    rcases hor with hover | hfits
    · omega
    · exact hfits
  · exact ⟨fun _ => Or.inl (by omega), fun _ hle => absurd hle hlimit⟩

/-- The smallest table: a bootloader of 68 KB and an application of the same size. -/
def smallTable : List Char :=
  "primary_bootloader,,68k,code,TRUE,FALSE\nprimary_cpu0_app,,68k,code,TRUE,FALSE\n".toList

/-- The files of a table with two small partitions. -/
def smallGenerated : Generated :=
  let table : PartitionsTable :=
    { crcEnable := true
      flashSize := 8388608
      cumulativeOffset := 139264
      partitions :=
        [{ id := 0, name := "primary_bootloader".toList, offset := 0, size := 69632
           execute := true, read := true, write := false },
          { id := 1, name := "primary_cpu0_app".toList, offset := 69632, size := 69632
            execute := true, read := true, write := false }] }
  { table, pack := genPackJson table }

theorem smallTable_scheme : Scheme smallTable smallGenerated
    { id := 1, name := "primary_cpu0_app".toList, offset := 69632, size := 69632
      execute := true, read := true, write := false } 69632 where
  accepted := by rfl
  crc := rfl
  application := by rfl
  named := by decide
  limited := ⟨"4MB".toList, by rfl⟩

/-- A sketch of 64 KB is within the limit, and the builder has room for it. -/
theorem smallTable_fitting_app : LimitAgrees smallGenerated 69632 []
    (List.replicate 65536 0) none := by
  refine (limitAgrees_iff smallTable smallGenerated _ 69632 smallTable_scheme [] _ none).2
    (Or.inr ?_)
  rw [List.length_replicate]
  decide

/-- A sketch as long as the limit is refused by the builder. -/
theorem smallTable_full_app : ¬ LimitAgrees smallGenerated 69632 []
    (List.replicate 69632 0) none := by
  intro h
  have hlength : ((List.replicate 69632 (0 : UInt8)).length : Int) = 69632 := by
    rw [List.length_replicate]
    rfl
  have hfits := (scheme_fits_iff smallTable smallGenerated _ 69632 smallTable_scheme [] _ none).1
    (h (by omega))
  rw [hlength] at hfits
  simp only [prefixLength] at hfits
  omega

end Tools

end ArduinoBeken
