import ArduinoBeken.Tools.PythonText
import Mathlib.Data.List.TakeWhile

/-!
# The Preparation of a Sketch

`sketch_prep.py` joins the files of a sketch into one C++ file. It writes prototypes
of the functions it finds by reading the joined text line by line, with a count of
the brackets and a regular expression for the head of a function, and inserts them
behind the first lines of comments and directives.

A regular expression is what it matches of a text, in the order of preference: a list
of the ways in which the text is divided into the match and the rest. White space and
letters are those of Python's `str`; which characters beyond ASCII are letters is left
open.

## Main definitions

* `splitLinesKeep`: `splitlines(keepends=True)`.
* `functionNames`: `FUNCTION_DEF_RE`.
* `generatePrototypes`: `generate_function_prototypes`.
* `scanLine`, `insertAt`, `insertPrototypes`: `insert_prototypes_after_includes`.
* `Sketch`, `plainBody`, `sketchBody`, `prepareSketch`: `prepare_sketch`.

## Theorems

* `flatten_splitLinesKeep`: The lines are the text.
* `leadingText_append_remainingText`: Where the block goes.
* `plainBody_eq`: The sources in order, up to trailing white space.
-/

namespace ArduinoBeken

namespace Tools

/-! ### Lines -/

/-- `splitlines(keepends=True)`, from the line read so far. -/
def splitLinesKeepFrom (line : List Char) : List Char → List (List Char)
  | [] => if line = [] then [] else [line.reverse]
  | '\r' :: '\n' :: cs => ('\n' :: '\r' :: line).reverse :: splitLinesKeepFrom [] cs
  | c :: cs =>
    if isLineBreak c then (c :: line).reverse :: splitLinesKeepFrom [] cs
    else splitLinesKeepFrom (c :: line) cs

/-- `str.splitlines(keepends=True)`. -/
def splitLinesKeep (s : List Char) : List (List Char) :=
  splitLinesKeepFrom [] s

/-- The lines joined are the text. -/
theorem flatten_splitLinesKeepFrom (line s : List Char) :
    (splitLinesKeepFrom line s).flatten = line.reverse ++ s := by
  induction line, s using splitLinesKeepFrom.induct with
  | case1 => rfl
  | case2 line hne => simp [splitLinesKeepFrom, hne]
  | case3 line cs ih => simp [splitLinesKeepFrom, ih]
  | case4 line c cs hnot hbreak ih =>
      rw [splitLinesKeepFrom.eq_3 _ _ _ hnot, if_pos hbreak, List.flatten_cons, ih]
      simp
  | case5 line c cs hnot hbreak ih =>
      rw [splitLinesKeepFrom.eq_3 _ _ _ hnot, if_neg hbreak, ih]
      simp

theorem flatten_splitLinesKeep (s : List Char) : (splitLinesKeep s).flatten = s :=
  flatten_splitLinesKeepFrom [] s

/-! ### The head of a function -/

section Pattern

-- The letters and digits beyond ASCII.
variable (letter : Char → Bool)

/-- `\w`. -/
def isWord (c : Char) : Bool :=
  c == '_' || c.isAlphanum || (128 ≤ c.toNat && letter c)

/-- A run of characters, the shortest first: `[..]*?`. -/
def lazyRun (p : Char → Bool) : List Char → List (List Char × List Char)
  | [] => [([], [])]
  | c :: cs =>
    ([], c :: cs) :: if p c then (lazyRun p cs).map fun (run, rest) => (c :: run, rest) else []

/-- The longest first: `[..]*`. -/
def greedyRun (p : Char → Bool) (s : List Char) : List (List Char × List Char) :=
  (lazyRun p s).reverse

/-- What is left behind `\s*`. -/
def spaces (s : List Char) : List (List Char) :=
  (greedyRun isSpace s).map Prod.snd

/-- What is left behind `\s+`. -/
def someSpaces (s : List Char) : List (List Char) :=
  ((greedyRun isSpace s).filter fun (run, _) => !run.isEmpty).map Prod.snd

/-- What is left behind a text. -/
def literal (text s : List Char) : List (List Char) :=
  if text.isPrefixOf s then [s.drop text.length] else []

/-- `\b` behind a letter. -/
def atBoundary (s : List Char) : Bool :=
  !(s.head?.any (isWord letter))

/-- The words that no prototype begins with. -/
def keywords : List (List Char) :=
  [['i', 'f'], ['f', 'o', 'r'], ['w', 'h', 'i', 'l', 'e'], ['s', 'w', 'i', 't', 'c', 'h'],
    ['c', 'a', 't', 'c', 'h'], ['e', 'l', 's', 'e'], ['d', 'o']]

/-- `(?:[\w:<>~*&\s]+?\s+)?`. -/
def resultType (s : List Char) : List (List Char) :=
  (((lazyRun (fun c => isWord letter c || [':', '<', '>', '~', '*', '&'].contains c || isSpace c)
    s).filter fun (run, _) => !run.isEmpty).flatMap fun (_, rest) => someSpaces rest) ++ [s]

/-- `[A-Za-z_]\w*`, with what is left. -/
def identifier (s : List Char) : List (List Char × List Char) :=
  match s with
  | [] => []
  | c :: cs =>
    if c == '_' || c.isAlpha then
      (greedyRun (isWord letter) cs).map fun (run, rest) => (c :: run, rest)
    else []

/-- A word with white space, if it is there: `(?:word\b\s*)?`. -/
def optionalWord (word s : List Char) : List (List Char) :=
  (((literal word s).filter (atBoundary letter)).flatMap spaces) ++ [s]

/-- `(?:->\s*[^{}]+)?`. -/
def optionalArrow (s : List Char) : List (List Char) :=
  ((literal ['-', '>'] s).flatMap fun s => (spaces s).flatMap fun s =>
    ((greedyRun (fun c => !(['{', '}'].contains c)) s).filter fun (run, _) => !run.isEmpty).map
      Prod.snd) ++ [s]

/-- The names in the matches of `FUNCTION_DEF_RE`, from the start of a text. -/
def functionNames (s : List Char) : List (List Char) :=
  (spaces s).flatMap fun s =>
    if keywords.any fun word => word.isPrefixOf s && atBoundary letter (s.drop word.length) then []
    else
      (resultType letter s).flatMap fun s =>
      (identifier letter s).flatMap fun (name, s) =>
      (spaces s).flatMap fun s =>
      (literal ['('] s).flatMap fun s =>
      (greedyRun (fun c => !([';', '{', '}'].contains c)) s).flatMap fun (_, s) =>
      (literal [')'] s).flatMap fun s =>
      (spaces s).flatMap fun s =>
      (optionalWord letter ['c', 'o', 'n', 's', 't'] s).flatMap fun s =>
      (optionalWord letter ['n', 'o', 'e', 'x', 'c', 'e', 'p', 't'] s).flatMap fun s =>
      (optionalArrow s).flatMap fun s =>
      (spaces s).flatMap fun s =>
        if s = ['{'] ∨ ['{', '\n'].isPrefixOf s then [name] else []

/-! ### The prototypes -/

/-- The variables of the loop over the lines. -/
structure PrototypeScan where
  prototypes : List (List Char) := []
  candidate_lines : List (List Char) := []
  paren_depth : Int := 0
  brace_depth : Int := 0
deriving DecidableEq, Repr

/-- The lines of a candidate with the next one. -/
def nextCandidate (candidate_lines : List (List Char)) (raw_line : List Char) :
    List (List Char) :=
  let line := strip raw_line
  if candidate_lines = [] ∧ line = [] then candidate_lines
  else if candidate_lines = [] ∧ (startsWith line ['#'] || startsWith line ['/', '/'] ||
      startsWith line ['/', '*'] || startsWith line ['*']) then candidate_lines
  else candidate_lines ++ [raw_line]

/-- The prototype that a complete candidate gives, if it gives one. -/
def prototypeOf (candidate_lines : List (List Char)) : Option (List Char) :=
  let flattened := [' '].intercalate (candidate_lines.map strip)
  if endsWith flattened ['{'] then
    match (functionNames letter flattened).head? with
    | some name =>
      if name = ['s', 'e', 't', 'u', 'p'] ∨ name = ['l', 'o', 'o', 'p'] then none
      else some (strip flattened.dropLast ++ [';'])
    | none => none
  else none

/-- What a line does at the outermost level. -/
def outerLine (st : PrototypeScan) (raw_line : List Char) : PrototypeScan :=
  let candidate_lines := nextCandidate st.candidate_lines raw_line
  let candidate := strip (['\n'].intercalate candidate_lines)
  if candidate ≠ [] ∧ candidate.contains '{' ∧ st.paren_depth = 0 then
    { st with
      prototypes := st.prototypes ++ (prototypeOf letter candidate_lines).toList
      candidate_lines := [] }
  else { st with candidate_lines := candidate_lines }

/-- One line of a sketch. Only outside of all braces may a function begin. -/
def scanPrototypes (st : PrototypeScan) (raw_line : List Char) : PrototypeScan :=
  let st := if st.brace_depth = 0 then outerLine letter st raw_line else st
  let paren_depth := st.paren_depth + raw_line.count '(' - raw_line.count ')'
  let brace_depth := st.brace_depth + raw_line.count '{' - raw_line.count '}'
  { st with
    candidate_lines := if brace_depth ≠ 0 then [] else st.candidate_lines
    paren_depth := paren_depth, brace_depth := brace_depth }

/-- `generate_function_prototypes`. -/
def generatePrototypes (source : List Char) : List Char :=
  ['\n'].intercalate ((splitLines source).foldl (scanPrototypes letter) {}).prototypes.eraseDups

end Pattern

/-! ### Where they go -/

/-- What the loop makes of a line, inside or outside of what it takes for a block
comment: whether it takes the next one to be inside, or `none` where it ends. -/
def scanLine (in_block_comment : Bool) (raw_line : List Char) : Option Bool :=
  let line := strip raw_line
  if in_block_comment then some (!contains line ['*', '/'])
  else if line = [] then some false
  else if startsWith line ['/', '/'] then some false
  else if startsWith line ['/', '*'] then some (!contains line ['*', '/'])
  else if startsWith line ['#'] then some false
  else none

/-- The loop: how many lines there are in front of the block. -/
def insertAt (in_block_comment : Bool) : List (List Char) → Nat
  | [] => 0
  | raw_line :: lines =>
    match scanLine in_block_comment raw_line with
    | some inside => insertAt inside lines + 1
    | none => 0

/-- The text in front of the block. -/
def leadingText (source : List Char) : List Char :=
  let lines := splitLinesKeep source
  (lines.take (insertAt false lines)).flatten

/-- The text behind it. -/
def remainingText (source : List Char) : List Char :=
  let lines := splitLinesKeep source
  (lines.drop (insertAt false lines)).flatten

/-- The text is only divided. -/
theorem leadingText_append_remainingText (source : List Char) :
    leadingText source ++ remainingText source = source := by
  rw [leadingText, remainingText, ← List.flatten_append, List.take_append_drop,
    flatten_splitLinesKeep]

/-- What is inserted. -/
def prototypeBlock (prototypes : List Char) : List Char :=
  prototypes ++ ['\n', '\n']

/-- `insert_prototypes_after_includes`. -/
def insertPrototypes (source prototypes : List Char) : List Char :=
  if prototypes = [] then source
  else leadingText source ++ prototypeBlock prototypes ++ remainingText source

/-! ### The sketch -/

/-- A file of a sketch: its name and its text as it is read. -/
structure SourceFile where
  name : List Char
  text : List Char
  suffix : endsWith name ['.', 'i', 'n', 'o'] = true ∨ endsWith name ['.', 'c', 'p', 'p'] = true

/-- The files in the order they are joined in. There is at least one. -/
structure Sketch where
  first : SourceFile
  others : List SourceFile
  is_ino_sketch : Bool

/-- The files in the order of the source that is generated. -/
def Sketch.files (sketch : Sketch) : List SourceFile :=
  sketch.first :: sketch.others

/-- `// Source: name`. -/
def marker (f : SourceFile) : List Char :=
  ['/', '/', ' ', 'S', 'o', 'u', 'r', 'c', 'e', ':', ' '] ++ f.name ++ ['\n']

/-- A file behind its marker. -/
def bodyPart (f : SourceFile) : List Char :=
  marker f ++ rstrip f.text ++ ['\n', '\n']

/-- The joined text without prototypes. -/
def plainBody (sketch : Sketch) : List Char :=
  rstrip (sketch.files.map bodyPart).flatten ++ ['\n']

/-! ### White space at the end -/

/-- What stands in front of something visible is not stripped. -/
theorem rstrip_append (a b : List Char) (h : rstrip b ≠ []) : rstrip (a ++ b) = a ++ rstrip b := by
  have hdrop : b.reverse.dropWhile isSpace ≠ [] := by
    intro hnil
    exact h (by rw [rstrip, hnil]; rfl)
  rw [rstrip, List.reverse_append, List.dropWhile_append]
  have hempty : (b.reverse.dropWhile isSpace).isEmpty = false := by
    cases hd : b.reverse.dropWhile isSpace with
    | nil => exact absurd hd hdrop
    | cons c cs => rfl
  rw [hempty]
  simp only [Bool.false_eq_true, if_false, List.reverse_append, List.reverse_reverse]
  rfl

/-- White space behind a text is stripped with its own. -/
theorem rstrip_append_spaces (a b : List Char) (h : ∀ c ∈ b, isSpace c = true) :
    rstrip (a ++ b) = rstrip a := by
  have hall : b.reverse.dropWhile isSpace = [] := by
    rw [List.dropWhile_eq_nil_iff]
    intro c hc
    exact h c (List.mem_reverse.1 hc)
  rw [rstrip, List.reverse_append, List.dropWhile_append, hall]
  rfl

theorem rstrip_rstrip (a : List Char) : rstrip (rstrip a) = rstrip a := by
  have hsplit : rstrip a ++ (a.reverse.takeWhile isSpace).reverse = a := by
    rw [rstrip, ← List.reverse_append, List.takeWhile_append_dropWhile, List.reverse_reverse]
  have hspaces : ∀ c ∈ (a.reverse.takeWhile isSpace).reverse, isSpace c = true :=
    fun c hc => List.mem_takeWhile_imp (List.mem_reverse.1 hc)
  rw [← rstrip_append_spaces (rstrip a) _ hspaces, hsplit]

theorem rstrip_ne_nil (a : List Char) (c : Char) (hmem : c ∈ a) (hc : isSpace c = false) :
    rstrip a ≠ [] := by
  intro hnil
  rw [rstrip, List.reverse_eq_nil_iff, List.dropWhile_eq_nil_iff] at hnil
  exact Bool.false_ne_true (hc.symm.trans (hnil c (List.mem_reverse.2 hmem)))

/-! ### The joined text -/

/-- The line that names a file ends visibly. -/
theorem rstrip_marker (f : SourceFile) : rstrip (marker f) ++ ['\n'] = marker f := by
  have hname : rstrip f.name = f.name := by
    -- a text that ends with a visible character is not stripped
    have hends : ∀ a last : List Char, last.length = 1 → (∀ c ∈ last, isSpace c = false) →
        rstrip (a ++ last) = a ++ last := by
      intro a last hone hvisible
      match last, hone with
      | [c], _ =>
        have hc := hvisible c List.mem_cons_self
        have hself : rstrip [c] = [c] := by simp [rstrip, hc]
        rw [rstrip_append a [c] (by rw [hself]; simp), hself]
    rcases f.suffix with hino | hcpp
    · rcases List.isSuffixOf_iff_suffix.1 hino with ⟨stem, hstem⟩
      rw [← hstem, show ['.', 'i', 'n', 'o'] = ['.', 'i', 'n'] ++ ['o'] from rfl,
        ← List.append_assoc]
      exact hends _ ['o'] rfl (List.forall_mem_singleton.2 rfl)
    · rcases List.isSuffixOf_iff_suffix.1 hcpp with ⟨stem, hstem⟩
      rw [← hstem, show ['.', 'c', 'p', 'p'] = ['.', 'c', 'p'] ++ ['p'] from rfl,
        ← List.append_assoc]
      exact hends _ ['p'] rfl (List.forall_mem_singleton.2 rfl)
  have hne : rstrip f.name ≠ [] := by
    rw [hname]
    intro hnil
    have hsuffix := f.suffix
    rw [hnil] at hsuffix
    exact absurd hsuffix (by decide)
  rw [marker, rstrip_append_spaces _ ['\n'] (List.all_eq_true.1 rfl),
    rstrip_append _ f.name hne, hname]

theorem rstrip_bodyPart (f : SourceFile) :
    ∃ t, rstrip t = rstrip f.text ∧ rstrip (bodyPart f) ++ ['\n'] = marker f ++ t := by
  have hspaces : rstrip (bodyPart f) = rstrip (marker f ++ rstrip f.text) :=
    rstrip_append_spaces _ ['\n', '\n'] (List.all_eq_true.1 rfl)
  by_cases htext : rstrip f.text = []
  · refine ⟨[], by rw [htext]; rfl, ?_⟩
    simp only [hspaces, htext, List.append_nil]
    exact rstrip_marker f
  · refine ⟨rstrip f.text ++ ['\n'], ?_, ?_⟩
    · rw [rstrip_append_spaces _ ['\n'] (List.all_eq_true.1 rfl), rstrip_rstrip]
    · rw [hspaces, rstrip_append _ _ (by rw [rstrip_rstrip]; exact htext), rstrip_rstrip,
        List.append_assoc]

/-- The joined text gives each file back behind its name, up to the white space at its
end. -/
theorem plainBody_eq (sketch : Sketch) :
    ∃ texts, List.Forall₂ (fun f t => rstrip t = rstrip f.text) sketch.files texts ∧
      plainBody sketch = (List.zipWith (fun f t => marker f ++ t) sketch.files texts).flatten := by
  have hall : ∀ (others : List SourceFile) (first : SourceFile),
      ∃ texts, List.Forall₂ (fun (f : SourceFile) t => rstrip t = rstrip f.text) (first :: others)
          texts ∧
        rstrip ((first :: others).map bodyPart).flatten ++ ['\n'] =
          (List.zipWith (fun f t => marker f ++ t) (first :: others) texts).flatten := by
    intro others
    induction others with
    | nil =>
        intro first
        rcases rstrip_bodyPart first with ⟨t, ht, hpart⟩
        refine ⟨[t], List.Forall₂.cons ht List.Forall₂.nil, ?_⟩
        simp only [List.map_cons, List.map_nil, List.flatten_cons, List.flatten_nil,
          List.append_nil, List.zipWith_cons_cons, List.zipWith_nil_right]
        exact hpart
    | cons next others ih =>
        intro first
        rcases ih next with ⟨texts, htexts, heq⟩
        refine ⟨(rstrip first.text ++ ['\n', '\n']) :: texts, List.Forall₂.cons ?_ htexts, ?_⟩
        · rw [rstrip_append_spaces _ ['\n', '\n'] (List.all_eq_true.1 rfl), rstrip_rstrip]
        · -- The name of the next file is visible, so nothing of this one is stripped.
          have hvisible : rstrip ((next :: others).map bodyPart).flatten ≠ [] := by
            refine rstrip_ne_nil _ '/' ?_ (by decide)
            rw [List.map_cons, List.flatten_cons]
            refine List.mem_append_left _ ?_
            simp [bodyPart, marker]
          rw [List.map_cons, List.flatten_cons, rstrip_append _ _ hvisible, List.append_assoc, heq,
            List.zipWith_cons_cons, List.flatten_cons, bodyPart]
          simp only [List.append_assoc]
  exact hall sketch.others sketch.first

section Prepare

variable (letter : Char → Bool)

/-- The joined text as it is written. -/
def sketchBody (sketch : Sketch) : List Char :=
  if sketch.is_ino_sketch then
    insertPrototypes (plainBody sketch) (generatePrototypes letter (plainBody sketch))
  else plainBody sketch

/-- `prepare_sketch`: what it writes. -/
def prepareSketch (sketch : Sketch) : List Char :=
  (if sketch.is_ino_sketch then "#include <Arduino.h>\n\n".toList else []) ++
    sketchBody letter sketch

end Prepare

end Tools

end ArduinoBeken
