import ArduinoBeken.Tools.PartitionTable

/-!
# The Tables That Are Accepted

The checks of the table look at each partition from above: it has to end
inside the flash, and to begin no earlier than its neighbour ends. A number
below zero passes both, so they say what they mean just where no row of the
table writes one.

## Main definitions

* `Sane`: What a table is for.
* `writtenOffset`, `writtenSize`: The numbers a row writes.
* `SignFree`: A line that writes no number below zero.
* `Grounded`: What such lines leave behind.

## Theorems

* `parseTableLine_cases`: What a line does to the table.
* `apart_of_neighbours`: Neighbours that are apart are all apart.
* `table_sane_iff`: An accepted table is sane exactly where no line writes a
  number below zero.
-/

namespace ArduinoBeken

namespace Tools

/-! ### What a table is for -/

/-- One of the two ends before the other begins. -/
def Partition.Apart (p q : Partition) : Prop :=
  p.offset + p.size ≤ q.offset ∨ q.offset + q.size ≤ p.offset

/-- What a table promises of its partitions. -/
structure Sane (table : PartitionsTable) : Prop where
  positive : ∀ p ∈ table.partitions, 0 < p.size
  inside : ∀ p ∈ table.partitions, 0 ≤ p.offset ∧ p.offset + p.size ≤ table.flashSize
  disjoint : table.partitions.Pairwise Partition.Apart
  aligned : table.crcEnable = true → ∀ p ∈ table.partitions, p.execute = true →
    p.offset % (1024 * 34) = 0 ∧ p.size % (1024 * 34) = 0

/-! ### What a row writes -/

/-- A line that is none of the settings. -/
def isPartitionRow (line : List Char) : Bool :=
  !isCommentOrEmpty line && !contains line "FLASH_CAPACITY".toList &&
    !contains line "FLASH_CRC_ENABLE".toList && !contains line "FLASH_AES_ENABLE".toList &&
    !contains line "FLASH_AES_KEY".toList

/-- The columns of a line. -/
def columns (line : List Char) : List (List Char) :=
  (splitOn ',' line).map strip

/-- The offset of a row; `none` where it is left to follow. -/
def writtenOffset (line : List Char) : Option Int :=
  (columns line)[1]?.bind fun offsetStr => if offsetStr = [] then none else pyInt 16 offsetStr

/-- The size that a line tells. -/
def writtenSize (line : List Char) : Option Int :=
  (columns line)[2]?.bind fun sizeStr => (parseFormatSize sizeStr).toOption

/-- A line that writes no number below zero. -/
def SignFree (rawLine : List Char) : Prop :=
  isPartitionRow (strip rawLine) = true →
    (∀ offset ∈ writtenOffset (strip rawLine), 0 ≤ offset) ∧
      ∀ size ∈ writtenSize (strip rawLine), 0 ≤ size

/-- A partition that begins and ends above the ground. -/
def Partition.Solid (p : Partition) : Prop :=
  0 < p.size ∧ 0 ≤ p.offset

/-- The invariant of the loop over the lines. -/
structure Grounded (table : PartitionsTable) : Prop where
  cumulative : 0 ≤ table.cumulativeOffset
  solid : ∀ p ∈ table.partitions, p.Solid

/-! ### What a line does -/

/-- The partition a row adds. -/
structure RowOf (line : List Char) (cumulativeOffset : Int) (p : Partition) : Prop where
  size_written : writtenSize line = some p.size
  offset_written : writtenOffset line = some p.offset ∨
    writtenOffset line = none ∧ p.offset = cumulativeOffset
  size_ne : p.size ≠ 0

theorem newPartition_ok (p q : Partition) (h : newPartition p = .ok q) :
    q = p ∧ p.size ≠ 0 := by
  unfold newPartition at h
  by_cases hbad : p.size = 0 ∨ p.size % 1024 ≠ 0
  · rw [if_pos hbad] at h
    exact absurd h (by simp)
  · rw [if_neg hbad] at h
    exact ⟨(Except.ok.inj h).symm, fun hzero => hbad (Or.inl hzero)⟩

/-- A row adds one partition, and the next offset is its end. -/
theorem parsePartitionLine_ok (table table' : PartitionsTable) (line : List Char)
    (h : parsePartitionLine table line = .ok table') :
    ∃ p, RowOf line table.cumulativeOffset p ∧
      table' = { table with
        cumulativeOffset := p.offset + p.size
        partitions := table.partitions ++ [p] } := by
  unfold parsePartitionLine at h
  split at h
  next name offsetStr sizeStr mode readStr writeStr rest hcols =>
    have hcolumns : columns line =
        name :: offsetStr :: sizeStr :: mode :: readStr :: writeStr :: rest := hcols
    -- the offset is settled first, and the rest of the row goes on from it
    have hoffset : ∃ offset, (writtenOffset line = some offset ∨
        writtenOffset line = none ∧ offset = table.cumulativeOffset) ∧
        (do
          let size ← parseFormatSize sizeStr
          let execute ← parseMode mode
          let part ← newPartition
            { id := table.partitions.length, name, offset, size, execute
              read := lower readStr = "true".toList
              write := lower writeStr = "true".toList }
          .ok { table with
            cumulativeOffset := offset + size
            partitions := table.partitions ++ [part] }) = Except.ok table' := by
      simp only [writtenOffset, hcolumns, List.getElem?_cons_succ, List.getElem?_cons_zero,
        Option.bind_some]
      by_cases hempty : offsetStr = []
      · simp only [if_pos hempty] at h ⊢
        exact ⟨_, Or.inr ⟨trivial, rfl⟩, h⟩
      · simp only [if_neg hempty] at h ⊢
        rcases (Stages.bind_eq_ok _ _ _).1 h with ⟨offset, hparsed, h₁⟩
        exact ⟨offset, Or.inl (orValueError_ok _ _ hparsed), h₁⟩
    rcases hoffset with ⟨offset, hwritten, h₁⟩
    rcases (Stages.bind_eq_ok _ _ _).1 h₁ with ⟨size, hsize, h₂⟩
    rcases (Stages.bind_eq_ok _ _ _).1 h₂ with ⟨execute, -, h₃⟩
    rcases (Stages.bind_eq_ok _ _ _).1 h₃ with ⟨part, hpart, h₄⟩
    have hnew := newPartition_ok _ _ hpart
    have hwrittenSize : writtenSize line = some size := by
      simp only [writtenSize, hcolumns, List.getElem?_cons_succ, List.getElem?_cons_zero,
        Option.bind_some, hsize, Except.toOption]
    refine ⟨part, ⟨?_, ?_, ?_⟩, ?_⟩
    · rw [hnew.1]
      exact hwrittenSize
    · rw [hnew.1]
      exact hwritten
    · rw [hnew.1]
      exact hnew.2
    · rw [← Except.ok.inj h₄, hnew.1]
  next => exact absurd h (by simp)

/-- A line is a setting and leaves the partitions alone, or it is a row and adds
one. -/
theorem parseTableLine_cases (table table' : PartitionsTable) (rawLine : List Char)
    (h : parseTableLine table rawLine = .ok table') :
    (isPartitionRow (strip rawLine) = false ∧ table'.partitions = table.partitions ∧
        table'.cumulativeOffset = table.cumulativeOffset) ∨
      isPartitionRow (strip rawLine) = true ∧
        ∃ p, RowOf (strip rawLine) table.cumulativeOffset p ∧
          table'.partitions = table.partitions ++ [p] ∧
          table'.cumulativeOffset = p.offset + p.size := by
  unfold parseTableLine at h
  simp only at h
  -- A line that is no row leaves the partitions alone, whatever it sets.
  by_cases hcomment : isCommentOrEmpty (strip rawLine) = true
  · rw [if_pos hcomment] at h
    exact Or.inl ⟨by simp [isPartitionRow, hcomment], by rw [Except.ok.inj h],
      by rw [Except.ok.inj h]⟩
  rw [if_neg hcomment] at h
  by_cases hcapacity : contains (strip rawLine) "FLASH_CAPACITY".toList = true
  · rw [if_pos hcapacity] at h
    rcases (Stages.bind_eq_ok _ _ _).1 h with ⟨value, -, h₁⟩
    rcases (Stages.bind_eq_ok _ _ _).1 h₁ with ⟨size, -, h₂⟩
    rw [← Except.ok.inj h₂]
    exact Or.inl ⟨by simp only [isPartitionRow, hcapacity, Bool.not_true, Bool.and_false,
      Bool.false_and], rfl, rfl⟩
  rw [if_neg hcapacity] at h
  by_cases hcrc : contains (strip rawLine) "FLASH_CRC_ENABLE".toList = true
  · rw [if_pos hcrc] at h
    rcases (Stages.bind_eq_ok _ _ _).1 h with ⟨value, -, h₁⟩
    refine Or.inl ⟨by simp only [isPartitionRow, hcrc, Bool.not_true, Bool.and_false,
      Bool.false_and], ?_⟩
    split at h₁
    next enable _ =>
      rw [← Except.ok.inj h₁]
      exact ⟨rfl, rfl⟩
    next =>
      rw [← Except.ok.inj h₁]
      exact ⟨rfl, rfl⟩
  rw [if_neg hcrc] at h
  by_cases haes : contains (strip rawLine) "FLASH_AES_ENABLE".toList = true
  · rw [if_pos haes] at h
    rw [← Except.ok.inj h]
    exact Or.inl ⟨by simp only [isPartitionRow, haes, Bool.not_true, Bool.and_false,
      Bool.false_and], rfl, rfl⟩
  rw [if_neg haes] at h
  by_cases hkey : contains (strip rawLine) "FLASH_AES_KEY".toList = true
  · rw [if_pos hkey] at h
    rw [← Except.ok.inj h]
    exact Or.inl ⟨by simp only [isPartitionRow, hkey, Bool.not_true, Bool.and_false], rfl, rfl⟩
  rw [if_neg hkey] at h
  by_cases hvariable : isVariable (strip rawLine) = true
  · rw [if_pos hvariable] at h
    exact absurd h (by simp)
  rw [if_neg hvariable] at h
  -- What is left is a row.
  rcases parsePartitionLine_ok _ _ _ h with ⟨p, hp, htable⟩
  refine Or.inr ⟨?_, p, hp, by rw [htable], by rw [htable]⟩
  simp only [Bool.not_eq_true] at hcomment hcapacity hcrc haes hkey
  simp only [isPartitionRow, hcomment, hcapacity, hcrc, haes, hkey, Bool.not_false, Bool.and_self]

/-! ### What a run of lines leaves -/

/-- A row without a sign adds a solid partition, and only such a row does. -/
theorem rowOf_solid_iff (line : List Char) (cumulativeOffset : Int) (p : Partition)
    (h : RowOf line cumulativeOffset p) (hground : 0 ≤ cumulativeOffset) :
    p.Solid ↔
      (∀ offset ∈ writtenOffset line, 0 ≤ offset) ∧ ∀ size ∈ writtenSize line, 0 ≤ size := by
  have hne := h.size_ne
  simp only [Partition.Solid, h.size_written, Option.mem_some_iff, forall_eq']
  rcases h.offset_written with hoffset | ⟨hnone, hoffset⟩
  · simp only [hoffset, Option.mem_some_iff, forall_eq']
    omega
  · simp only [hnone, Option.not_mem_none, false_implies, implies_true, true_and]
    omega

theorem parseTableLine_subset (table table' : PartitionsTable) (rawLine : List Char)
    (h : parseTableLine table rawLine = .ok table') : table.partitions ⊆ table'.partitions := by
  rcases parseTableLine_cases _ _ _ h with ⟨-, hpartitions, -⟩ | ⟨-, p, -, hpartitions, -⟩
  · rw [hpartitions]
    exact List.Subset.refl _
  · rw [hpartitions]
    exact List.subset_append_left _ _

/-- One line: what stands on the ground stays there exactly where the line is
free of signs. -/
theorem parseTableLine_grounded (table table' : PartitionsTable) (rawLine : List Char)
    (h : parseTableLine table rawLine = .ok table') (hground : Grounded table) :
    (SignFree rawLine → Grounded table') ∧
      ((∀ p ∈ table'.partitions, p.Solid) → SignFree rawLine) := by
  rcases parseTableLine_cases _ _ _ h with
    ⟨hrow, hpartitions, hoffset⟩ | ⟨hrow, p, hp, hpartitions, hoffset⟩
  · -- A line that is no row changes nothing.
    refine ⟨fun _ => ⟨?_, ?_⟩, fun _ hisRow => ?_⟩
    · rw [hoffset]
      exact hground.cumulative
    · rw [hpartitions]
      exact hground.solid
    · rw [hrow] at hisRow
      exact absurd hisRow (by simp)
  · -- A row is solid exactly if it has no sign.
    have hiff := rowOf_solid_iff _ _ _ hp hground.cumulative
    constructor
    · intro hfree
      have hsolid : p.Solid := hiff.2 (hfree hrow)
      have hend : 0 < p.size ∧ 0 ≤ p.offset := hsolid
      refine ⟨by omega, fun q hq => ?_⟩
      rw [hpartitions] at hq
      rcases List.mem_append.1 hq with hq | hq
      · exact hground.solid q hq
      · rw [List.mem_singleton.1 hq]
        exact hsolid
    · intro hall _
      exact hiff.1 (hall p (by rw [hpartitions]; exact List.mem_concat_self))

theorem parseLines_subset (lines : List (List Char)) (table table' : PartitionsTable)
    (h : lines.foldlM parseTableLine table = .ok table') :
    table.partitions ⊆ table'.partitions := by
  induction lines generalizing table with
  | nil =>
      rw [Except.ok.inj h]
      exact List.Subset.refl _
  | cons line lines ih =>
      rw [List.foldlM_cons] at h
      rcases (Stages.bind_eq_ok _ _ _).1 h with ⟨next, hline, hrest⟩
      exact List.Subset.trans (parseTableLine_subset _ _ _ hline) (ih next hrest)

/-- All lines: every partition is solid exactly where every line is free of
signs. The induction carries the ground the next offset stands on. -/
theorem parseLines_solid_iff (lines : List (List Char)) (table table' : PartitionsTable)
    (h : lines.foldlM parseTableLine table = .ok table') (hground : Grounded table) :
    (∀ p ∈ table'.partitions, p.Solid) ↔ ∀ line ∈ lines, SignFree line := by
  induction lines generalizing table with
  | nil =>
      rw [← Except.ok.inj h]
      exact iff_of_true hground.solid (fun line hline => absurd hline (by simp))
  | cons line lines ih =>
      rw [List.foldlM_cons] at h
      rcases (Stages.bind_eq_ok _ _ _).1 h with ⟨next, hline, hrest⟩
      have hstep := parseTableLine_grounded _ _ _ hline hground
      rw [List.forall_mem_cons]
      constructor
      · intro hsolid
        have hnext : ∀ p ∈ next.partitions, p.Solid :=
          fun p hp => hsolid p (parseLines_subset _ _ _ hrest hp)
        have hfree := hstep.2 hnext
        exact ⟨hfree, (ih next hrest (hstep.1 hfree)).1 hsolid⟩
      · intro ⟨hfree, hall⟩
        exact (ih next hrest (hstep.1 hfree)).2 hall

/-! ### Neighbours -/

/-- Intervals that do not run backwards are all apart once neighbours are. -/
theorem apart_of_neighbours (spans : List (Int × Int)) (hspan : ∀ s ∈ spans, s.1 ≤ s.2)
    (h : neighboursOverlap spans = false) : spans.Pairwise fun a b => a.2 ≤ b.1 := by
  induction spans with
  | nil => exact List.Pairwise.nil
  | cons a rest ih =>
      cases rest with
      | nil => exact List.pairwise_singleton _ _
      | cons b rest =>
          simp only [neighboursOverlap, Bool.or_eq_false_iff, decide_eq_false_iff_not] at h
          have hapart := ih (fun s hs => hspan s (List.mem_cons_of_mem _ hs)) h.2
          refine List.pairwise_cons.2 ⟨fun c hc => ?_, hapart⟩
          have hb := hspan b (by simp)
          rcases List.mem_cons.1 hc with rfl | hc
          · omega
          · have hbc := (List.pairwise_cons.1 hapart).1 c hc
            omega

/-- The intervals are sorted to be checked, which changes no pair. -/
theorem disjoint_of_check (partitions : List Partition) (hsolid : ∀ p ∈ partitions, p.Solid)
    (h : checkOverlaps partitions = false) : partitions.Pairwise Partition.Apart := by
  let spans := partitions.map fun p => (p.offset, p.offset + p.size)
  have hperm : (spans.insertionSort pairLe).Perm spans := List.perm_insertionSort _ _
  have hspan : ∀ s ∈ spans.insertionSort pairLe, s.1 ≤ s.2 := by
    intro s hs
    rcases List.mem_map.1 (hperm.mem_iff.1 hs) with ⟨p, hp, rfl⟩
    have hpos : 0 < p.size ∧ 0 ≤ p.offset := hsolid p hp
    simp only
    omega
  have hsorted : (spans.insertionSort pairLe).Pairwise fun a b => a.2 ≤ b.1 ∨ b.2 ≤ a.1 :=
    (apart_of_neighbours _ hspan h).imp fun hab => Or.inl hab
  have hspans : spans.Pairwise fun a b => a.2 ≤ b.1 ∨ b.2 ≤ a.1 :=
    (hperm.pairwise_iff fun hab => hab.symm).1 hsorted
  have hapart : partitions.Pairwise fun p q =>
      p.offset + p.size ≤ q.offset ∨ q.offset + q.size ≤ p.offset := List.pairwise_map.1 hspans
  exact hapart

/-! ### The law -/

/-- What the checks find out of every table. -/
theorem checkPartitionValid_ok (table : PartitionsTable) (h : checkPartitionValid table = .ok ()) :
    (∀ p ∈ table.partitions, checkPartitionAlign table.crcEnable p = .ok ()) ∧
      checkOverlaps table.partitions = false ∧
      ∀ p ∈ table.partitions, p.offset + p.size ≤ table.flashSize := by
  unfold checkPartitionValid at h
  rcases (Stages.bind_eq_ok _ _ _).1 h with ⟨_, halign, h₁⟩
  by_cases hoverlap : checkOverlaps table.partitions = true
  · rw [if_pos hoverlap] at h₁
    exact absurd h₁ (by simp)
  · rw [if_neg hoverlap] at h₁
    refine ⟨forM_ok _ _ halign, by simpa using hoverlap, fun p hp => ?_⟩
    have hbound := forM_ok _ _ h₁ p hp
    unfold checkBound at hbound
    by_cases hout : p.offset + p.size > table.flashSize
    · rw [if_pos hout] at hbound
      exact absurd hbound (by simp)
    · omega

theorem sane_iff_solid (table : PartitionsTable) (h : checkPartitionValid table = .ok ()) :
    Sane table ↔ ∀ p ∈ table.partitions, p.Solid := by
  have hvalid := checkPartitionValid_ok table h
  constructor
  · exact fun hsane p hp => ⟨hsane.positive p hp, (hsane.inside p hp).1⟩
  · intro hsolid
    refine ⟨fun p hp => (hsolid p hp).1, fun p hp => ⟨(hsolid p hp).2, hvalid.2.2 p hp⟩,
      disjoint_of_check _ hsolid hvalid.2.1, fun hcrc p hp hexec => ?_⟩
    have halign := hvalid.1 p hp
    rw [hcrc] at halign
    exact checkPartitionAlign_ok p hexec halign

/-- Three rows, one of them a code partition, with the capacity and the switch
among them. -/
def plainRows : List Char :=
  "FLASH_CAPACITY=1M\nboot,,68K,code,TRUE,FALSE\n".toList ++
    "FLASH_CRC_ENABLE=1\nnet,20000,4096,data,TRUE,TRUE".toList

/-- A row that ends before it begins, in front of everything. -/
def backwardRow : List Char :=
  "sys,1000,-4K,data,TRUE,TRUE".toList

/-- An accepted table is sane exactly where none of its rows writes a number
below zero. -/
theorem table_sane_iff (csv : List Char) (crcEnable : Bool) (flashSize : Int)
    (table : PartitionsTable) (h : readPartitionsTable csv crcEnable flashSize = .ok table) :
    Sane table ↔ ∀ line ∈ splitLines csv, SignFree line := by
  unfold readPartitionsTable at h
  rcases (Stages.bind_eq_ok _ _ _).1 h with ⟨parsed, hparsed, h₁⟩
  rcases (Stages.bind_eq_ok _ _ _).1 h₁ with ⟨_, hvalid, h₂⟩
  rw [Except.ok.inj h₂] at hparsed hvalid
  have hground : Grounded { crcEnable, flashSize } := ⟨le_refl _, fun p hp => absurd hp (by simp)⟩
  rw [sane_iff_solid table hvalid, parseLines_solid_iff _ _ _ hparsed hground]

theorem table_sane_plain :
    ∃ table, readPartitionsTable plainRows false 0x800000 = .ok table ∧
      table.partitions.length = 2 ∧
        (Sane table ↔ ∀ line ∈ splitLines plainRows, SignFree line) := by
  let boot : Partition := ⟨0, "boot".toList, 0, 69632, true, true, false⟩
  let net : Partition := ⟨1, "net".toList, 0x20000, 4096, false, true, true⟩
  let table : PartitionsTable := ⟨true, 0x100000, 0x21000, [boot, net]⟩
  have htable : readPartitionsTable plainRows false 0x800000 = .ok table := by decide +kernel
  exact ⟨table, htable, rfl, table_sane_iff _ _ _ _ htable⟩

theorem table_not_sane_backward :
    ¬∀ (csv : List Char) (crcEnable : Bool) (flashSize : Int) (table : PartitionsTable),
      readPartitionsTable csv crcEnable flashSize = .ok table → Sane table := by
  intro h
  let sys : Partition := ⟨0, "sys".toList, 0x1000, -4096, false, true, true⟩
  have htable : readPartitionsTable backwardRow false 0x800000 =
      .ok ⟨false, 0x800000, 0, [sys]⟩ := by decide +kernel
  have hpositive := (h _ _ _ _ htable).positive sys (by simp)
  exact absurd hpositive (by decide)

end Tools

end ArduinoBeken
