import Mathlib.Data.List.Basic

/-!
# The Lines of a C++ Text

What has to be known of a C++ text to say whether a position in it is inside a
comment, in a preprocessor directive, or under a condition. The text is read as
the first phases of translation read it: a backslash before the end of a line
joins the line with the next one, comments count as a blank, a line whose first
token is `#` is a directive, and the conditional directives nest.

Literals matter for the comments that are none. A literal ends at its quote or at
the end of the line, and so does the name of an included file in brackets. Raw
string literals and numbers with separators are not told apart from others.

## Main definitions

* `splice`: The text with its lines joined.
* `Lex`, `step`, `scan`: Reading a text from left to right.
* `atLine`: The state at the start of a line, in a comment or not.
* `InComment`, `InConditional`, `Continued`: Where the end of a text is.

## Theorems

* `splice_append`, `scan_append`: Parts of a text.
-/

namespace CppText

/-- A backslash and the end of the line behind it are no part of the text. -/
def splice : List Char → List Char
  | [] => []
  | '\\' :: '\n' :: cs => splice cs
  | c :: cs => c :: splice cs

/-- What the reader is in, with a slash or a star that may begin or end a comment. -/
inductive Mode where
  | code
  | slash
  | lineComment
  | blockComment
  | star
  | literal (quote : Char)
  | escaped (quote : Char)
deriving DecidableEq, Repr

/-- The state of the reader. The line is `fresh` up to its first token. On a
directive there is its name as far as it is read, which is `named` when it is read
to its end. The `depth` is that of the open conditionals. -/
structure Lex where
  mode : Mode := .code
  fresh : Bool := true
  directive : Option (List Char) := none
  named : Bool := false
  depth : Nat := 0
deriving DecidableEq, Repr

/-- White space that ends no line. -/
def isBlank (c : Char) : Bool :=
  c.toNat == 32 || c.toNat == 9 || c.toNat == 11 || c.toNat == 12

/-- A character of an identifier. -/
def isIdent (c : Char) : Bool :=
  c.isAlphanum || c == '_'

namespace Lex

/-- What a directive does to the depth. -/
def newDepth (s : Lex) : Nat :=
  match s.directive with
  | none => s.depth
  | some name =>
    if name = ['i', 'f'] ∨ name = ['i', 'f', 'd', 'e', 'f'] ∨ name = ['i', 'f', 'n', 'd', 'e', 'f']
    then s.depth + 1
    else if name = ['e', 'n', 'd', 'i', 'f'] then s.depth - 1
    else s.depth

/-- The end of a line. -/
def endLine (s : Lex) : Lex :=
  { depth := s.newDepth }

/-- A blank or a comment. -/
def blank (s : Lex) : Lex :=
  { s with named := s.named || (s.directive.getD []) != [] }

/-- A token other than the name of a directive. -/
def token (s : Lex) : Lex :=
  { s with fresh := false, named := true }

/-- A character outside comments and literals. The quotes are `34` and `39`. -/
def codeChar (s : Lex) (c : Char) : Lex :=
  if c = '\n' then s.endLine
  else if c = '/' then { s with mode := .slash }
  else if c.toNat = 34 ∨ c.toNat = 39 then { s.token with mode := .literal c }
  else if c = '<' ∧ s.directive = some ['i', 'n', 'c', 'l', 'u', 'd', 'e'] then
    { s.token with mode := .literal '>' }
  else if c = '#' ∧ s.fresh then { s with fresh := false, directive := some [], named := false }
  else if isBlank c then s.blank
  else if isIdent c && s.directive.isSome && !s.named then
    { s with directive := s.directive.map (· ++ [c]) }
  else s.token

/-- One character of a text. -/
def step (s : Lex) (c : Char) : Lex :=
  match s.mode with
  | .code => s.codeChar c
  -- a slash alone is a token, two begin a comment
  | .slash =>
    if c = '/' then { s with mode := .lineComment }
    else if c = '*' then { s with mode := .blockComment }
    else { s.token with mode := .code }.codeChar c
  | .lineComment => if c = '\n' then s.endLine else s
  | .blockComment => if c = '*' then { s with mode := .star } else s
  -- a star may be followed by another, which ends the comment as well
  | .star =>
    if c = '/' then { s with mode := .code }.blank
    else if c = '*' then s
    else { s with mode := .blockComment }
  | .literal quote =>
    if c = '\n' then s.endLine
    else if c = '\\' then { s with mode := .escaped quote }
    else if c = quote then { s with mode := .code }
    else s
  | .escaped quote => if c = '\n' then s.endLine else { s with mode := .literal quote }

/-- A text from a state on. -/
def scan (s : Lex) (text : List Char) : Lex :=
  text.foldl step s

/-- The start of a line under so many conditionals, in a comment or not. -/
def atLine (comment : Bool) (depth : Nat) : Lex :=
  { mode := if comment then .blockComment else .code, depth := depth }

end Lex

/-! ### Where a text ends -/

/-- The state at the end of a text. -/
def stateAfter (text : List Char) : Lex :=
  Lex.scan {} (splice text)

/-- Behind the text a comment is open. -/
def InComment (text : List Char) : Prop :=
  (stateAfter text).mode = .blockComment ∨ (stateAfter text).mode = .star

/-- Behind the text a conditional of the preprocessor is open. -/
def InConditional (text : List Char) : Prop :=
  0 < (stateAfter text).depth

/-- The end of the last line is behind a backslash. -/
def endsJoined (text : List Char) : Bool :=
  ['\\', '\n'].isSuffixOf text

/-- The last line is one of a directive or a comment that goes on with the next. -/
def Continued (text : List Char) : Prop :=
  endsJoined text = true ∧
    ((stateAfter text).mode = .lineComment ∨ InComment text ∨
      (stateAfter text).directive.isSome = true)

instance (text : List Char) : Decidable (InComment text) :=
  inferInstanceAs (Decidable (_ ∨ _))

instance (text : List Char) : Decidable (InConditional text) :=
  inferInstanceAs (Decidable (_ < _))

instance (text : List Char) : Decidable (Continued text) :=
  inferInstanceAs (Decidable (_ ∧ (_ ∨ _ ∨ _)))

/-! ### Parts of a text -/

theorem splice_append (a b : List Char) (h : a.getLast? ≠ some '\\') :
    splice (a ++ b) = splice a ++ splice b := by
  induction a using splice.induct with
  | case1 => rfl
  | case2 cs ih =>
      have hrest : cs.getLast? ≠ some '\\' := by
        cases cs with
        | nil => simp
        | cons c cs => simpa using h
      exact ih hrest
  | case3 c cs hnot ih =>
      -- The first character is joined to nothing in the longer text either.
      have hnot' : ∀ rest, c = '\\' → cs ++ b = '\n' :: rest → False := by
        intro rest hc hcs
        cases cs with
        | nil =>
            rw [hc] at h
            exact h rfl
        | cons d cs => exact hnot cs hc (by rw [(List.cons.inj hcs).1])
      have hrest : cs.getLast? ≠ some '\\' := by
        cases cs with
        | nil => simp
        | cons d cs => simpa using h
      rw [List.cons_append, splice.eq_3 _ _ hnot', splice.eq_3 _ _ hnot, ih hrest]
      rfl

theorem scan_append (s : Lex) (a b : List Char) : s.scan (a ++ b) = (s.scan a).scan b :=
  List.foldl_append

end CppText
