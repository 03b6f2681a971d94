import ArduinoBeken.Library.CppText
import ArduinoBeken.Tools.SketchPrep

/-!
# The Place of the Prototypes

The block of prototypes goes behind the leading lines of the joined text, those that
the loop of `insert_prototypes_after_includes` takes for blank, for a comment or for
a directive. The rest of the text is as it was.

That the loop takes a line for one of these does not say that the text is outside of
comments, directives and conditions behind it. It is if C++ sees the lines as the
loop does, and the leading lines close what conditions they open
(`placement_iff`).

## Main definitions

* `leadingDepth`: The open conditions behind the leading lines, if C++ sees each of
  these lines as the loop does.
* `WellPlaced`: A position that a block may be put at.
* `PlacesWell`: The law.

## Theorems

* `stateAfter_leading`: What C++ sees behind the leading lines.
* `placement_iff`: The law for all sketches.
-/

namespace ArduinoBeken

namespace Tools

open CppText

/-- The number of conditions that are open behind the leading lines, if each of them,
read from the start of a line in or outside of a block comment as the loop takes it,
leads to the start of a line as the loop takes the next one. -/
def leadingDepth (inside : Bool) (depth : Nat) : List (List Char) → Option Nat
  | [] => if inside then none else some depth
  | raw_line :: lines =>
    match scanLine inside raw_line with
    | none => some depth
    | some inside' =>
      let s := (Lex.atLine inside depth).scan (splice raw_line)
      if s = Lex.atLine inside' s.depth then leadingDepth inside' s.depth lines else none

/-- Neither in a block comment, nor under a condition, nor between the lines of a
directive or comment. -/
structure WellPlaced (before : List Char) : Prop where
  comment : ¬InComment before
  conditional : ¬InConditional before
  continued : ¬Continued before

/-- The block that is put into the text of a sketch, if one is. -/
def insertedBlock (letter : Char → Bool) (sketch : Sketch) : List Char :=
  let prototypes := generatePrototypes letter (plainBody sketch)
  if sketch.is_ino_sketch = true ∧ prototypes ≠ [] then prototypeBlock prototypes else []

/-- Without the block the text is that of the files in order, each behind its name and
up to the white space at its end, and the block is well placed. -/
structure PlacesWell (letter : Char → Bool) (sketch : Sketch) : Prop where
  removal : ∃ before behind texts,
    sketchBody letter sketch = before ++ insertedBlock letter sketch ++ behind ∧
    before = leadingText (plainBody sketch) ∧
    List.Forall₂ (fun f t => rstrip t = rstrip f.text) sketch.files texts ∧
    before ++ behind = (List.zipWith (fun f t => marker f ++ t) sketch.files texts).flatten
  placed : insertedBlock letter sketch ≠ [] → WellPlaced (leadingText (plainBody sketch))

/-! ### The leading lines -/

/-- Behind a line break the text ends as its rest does, if there are lines left. -/
theorem getLast_rest (before rest l : List Char) (hl : l ∈ splitLinesKeepFrom [] rest) :
    (before ++ rest).getLast? = rest.getLast? := by
  cases rest with
  | nil => exact absurd hl (by simp [splitLinesKeepFrom])
  | cons c cs =>
      rw [List.getLast?_append, List.getLast?_eq_some_getLast (List.cons_ne_nil c cs)]
      rfl

/-- A line ends with a line break or as the text does. -/
theorem getLast_splitLinesKeepFrom (line s : List Char) :
    ∀ l ∈ splitLinesKeepFrom line s,
      (∃ c, l.getLast? = some c ∧ isLineBreak c = true) ∨
        l.getLast? = (line.reverse ++ s).getLast? := by
  -- `case3` is a line that ends with CR and LF, and `case4` one that ends with another break
  induction line, s using splitLinesKeepFrom.induct with
  | case1 =>
      intro l hl
      exact absurd hl (by simp [splitLinesKeepFrom])
  | case2 line hne =>
      intro l hl
      rw [splitLinesKeepFrom, if_neg hne, List.mem_singleton] at hl
      rw [hl, List.append_nil]
      exact Or.inr rfl
  | case3 line cs ih =>
      intro l hl
      rw [splitLinesKeepFrom, List.mem_cons] at hl
      rcases hl with hl | hl
      · exact Or.inl ⟨'\n', by rw [hl]; simp, rfl⟩
      · have hrest := getLast_rest (line.reverse ++ ['\r', '\n']) cs l hl
        rw [List.append_assoc] at hrest
        -- the last line ends with the text, or with its own break
        rcases ih l hl with hbreak | hlast
        · exact Or.inl hbreak
        · exact Or.inr (hlast.trans hrest.symm)
  | case4 line c cs hnot hbreak ih =>
      intro l hl
      rw [splitLinesKeepFrom.eq_3 _ _ _ hnot, if_pos hbreak, List.mem_cons] at hl
      rcases hl with hl | hl
      · exact Or.inl ⟨c, by rw [hl]; simp, hbreak⟩
      · have hrest := getLast_rest (line.reverse ++ [c]) cs l hl
        rw [List.append_assoc] at hrest
        rcases ih l hl with hbreak' | hlast
        · exact Or.inl hbreak'
        · exact Or.inr (hlast.trans hrest.symm)
  | case5 line c cs hnot hbreak ih =>
      intro l hl
      rw [splitLinesKeepFrom.eq_3 _ _ _ hnot, if_neg hbreak] at hl
      have hmem := ih l hl
      rw [List.reverse_cons, List.append_assoc, List.singleton_append] at hmem
      exact hmem

/-- No line of the joined text ends with a backslash. -/
theorem plainBody_lines (sketch : Sketch) :
    ∀ l ∈ splitLinesKeep (plainBody sketch), l.getLast? ≠ some '\\' := by
  intro l hl hlast
  rcases getLast_splitLinesKeepFrom [] (plainBody sketch) l hl with ⟨c, hc, hbreak⟩ | hend
  · rw [hlast] at hc
    rw [← Option.some.inj hc] at hbreak
    exact absurd hbreak (by decide)
  · rw [hlast, plainBody, List.reverse_nil, List.nil_append, List.getLast?_concat] at hend
    exact absurd hend (by decide)

/-- If C++ sees the leading lines as the loop does, it is at the start of a line behind
them, outside of comments. -/
theorem scan_leading (lines : List (List Char)) (inside : Bool) (depth depth' : Nat)
    (hlines : ∀ l ∈ lines, l.getLast? ≠ some '\\')
    (h : leadingDepth inside depth lines = some depth') :
    (Lex.atLine inside depth).scan (splice (lines.take (insertAt inside lines)).flatten) =
      Lex.atLine false depth' := by
  induction lines generalizing inside depth with
  | nil =>
      cases inside with
      | true => exact absurd h (by simp [leadingDepth])
      | false =>
          rw [← Option.some.inj h]
          rfl
  | cons l lines ih =>
      cases hscan : scanLine inside l with
      | none =>
          -- The loop ends only where it takes itself to be outside of a comment.
          have houtside : inside = false := by
            cases inside with
            | false => rfl
            | true => exact absurd hscan (by simp [scanLine])
          simp only [leadingDepth, hscan] at h
          have hnone : insertAt inside (l :: lines) = 0 := by
            simp only [insertAt, hscan]
          rw [hnone, houtside, ← Option.some.inj h]
          rfl
      | some inside' =>
          simp only [leadingDepth, hscan] at h
          split at h
          · next heq =>
            have hrest := ih inside' _ (fun l' hl' => hlines l' (List.mem_cons_of_mem l hl')) h
            simp only [insertAt, hscan, List.take_succ_cons, List.flatten_cons]
            rw [splice_append _ _ (hlines l List.mem_cons_self), scan_append, heq]
            exact hrest
          · exact absurd h (by simp)

theorem stateAfter_leading (sketch : Sketch) (depth : Nat)
    (h : leadingDepth false 0 (splitLinesKeep (plainBody sketch)) = some depth) :
    stateAfter (leadingText (plainBody sketch)) = Lex.atLine false depth :=
  scan_leading _ false 0 depth (plainBody_lines sketch) h

/-! ### The law -/

theorem sketchBody_eq (letter : Char → Bool) (sketch : Sketch) :
    sketchBody letter sketch = leadingText (plainBody sketch) ++ insertedBlock letter sketch ++
      remainingText (plainBody sketch) := by
  have hplain := leadingText_append_remainingText (plainBody sketch)
  unfold sketchBody insertedBlock insertPrototypes
  by_cases hino : sketch.is_ino_sketch = true
  · by_cases hnone : generatePrototypes letter (plainBody sketch) = []
    · simp [hino, hnone, hplain]
    · simp [hino, hnone]
  · simp [hino, hplain]

/-- Without the block the text is that of the files. -/
theorem removal (letter : Char → Bool) (sketch : Sketch) :
    ∃ before behind texts,
      sketchBody letter sketch = before ++ insertedBlock letter sketch ++ behind ∧
      before = leadingText (plainBody sketch) ∧
      List.Forall₂ (fun f t => rstrip t = rstrip f.text) sketch.files texts ∧
      before ++ behind = (List.zipWith (fun f t => marker f ++ t) sketch.files texts).flatten := by
  rcases plainBody_eq sketch with ⟨texts, htexts, heq⟩
  refine ⟨_, _, texts, sketchBody_eq letter sketch, rfl, htexts, ?_⟩
  rw [leadingText_append_remainingText]
  exact heq

/-- Lines that C++ sees as the loop does, and that close their conditions, leave a place
for a block. -/
theorem wellPlaced_of_leading (sketch : Sketch)
    (h : leadingDepth false 0 (splitLinesKeep (plainBody sketch)) = some 0) :
    WellPlaced (leadingText (plainBody sketch)) := by
  have hstate := stateAfter_leading sketch 0 h
  refine ⟨?_, ?_, ?_⟩
  · rw [InComment, hstate]
    decide
  · rw [InConditional, hstate]
    decide
  · -- Behind a backslash the text would still be in a comment or on a directive.
    rw [Continued, InComment, hstate]
    intro hcontinued
    exact absurd hcontinued.2 (by decide)

/-- For every sketch the block can be taken out again. It is well placed if there is
none, or if C++ sees the leading lines as the loop does and they leave no condition
open. Where C++ sees them so, only then. -/
theorem placement_iff (letter : Char → Bool) (sketch : Sketch) :
    (insertedBlock letter sketch = [] ∨
        leadingDepth false 0 (splitLinesKeep (plainBody sketch)) = some 0 →
      PlacesWell letter sketch) ∧
    (leadingDepth false 0 (splitLinesKeep (plainBody sketch)) ≠ none →
      PlacesWell letter sketch →
        insertedBlock letter sketch = [] ∨
          leadingDepth false 0 (splitLinesKeep (plainBody sketch)) = some 0) := by
  refine ⟨?_, ?_⟩
  -- the two conditions are each enough for the placement
  · intro hwhen
    refine ⟨removal letter sketch, fun hblock => ?_⟩
    rcases hwhen with hnone | hclosed
    · exact absurd hnone hblock
    · exact wellPlaced_of_leading sketch hclosed
  · intro hseen hlaw
    by_cases hblock : insertedBlock letter sketch = []
    -- where the leading lines are counted, what is open behind them is seen there
    · exact Or.inl hblock
    · rcases Option.ne_none_iff_exists'.1 hseen with ⟨depth, hdepth⟩
      have hstate := stateAfter_leading sketch depth hdepth
      have hopen := (hlaw.placed hblock).conditional
      rw [InConditional, hstate] at hopen
      rw [hdepth]
      exact Or.inr (congrArg some (Nat.le_zero.1 (Nat.not_lt.1 hopen)))

/-- A function with nothing in front of it. -/
def bareSketch : Sketch where
  first := ⟨['a', '.', 'i', 'n', 'o'], "void f() \x7b\n\x7d".toList, Or.inl (by decide)⟩
  others := []
  is_ino_sketch := true

theorem bareSketch_placesWell :
    leadingDepth false 0 (splitLinesKeep (plainBody bareSketch)) = some 0 ∧
      insertedBlock (fun _ => false) bareSketch = "void f();\n\n".toList ∧
      PlacesWell (fun _ => false) bareSketch := by
  have hclosed : leadingDepth false 0 (splitLinesKeep (plainBody bareSketch)) = some 0 := by
    decide +kernel
  exact ⟨hclosed, by decide +kernel,
    (placement_iff (fun _ => false) bareSketch).1 (Or.inr hclosed)⟩

/-- A function under a condition. -/
def guardedSketch : Sketch where
  first := ⟨['a', '.', 'i', 'n', 'o'], "#ifdef A\nvoid f() \x7b\n\x7d\n#endif".toList,
    Or.inl (by decide)⟩
  others := []
  is_ino_sketch := true

/-- The block stands behind the `#ifdef`, so the prototype is under the condition. -/
theorem guardedSketch_misplaced : ¬∀ letter sketch, PlacesWell letter sketch := by
  intro hlaw
  have hblock : insertedBlock (fun _ => false) guardedSketch ≠ [] := by
    decide +kernel
  have hopen := ((hlaw (fun _ => false) guardedSketch).placed hblock).conditional
  exact hopen (by decide +kernel)

end Tools

end ArduinoBeken
