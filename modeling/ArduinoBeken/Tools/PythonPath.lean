import ArduinoBeken.Tools.PythonText
import Mathlib.Data.List.Infix
import Mathlib.Data.List.Basic

/-!
# Python's Shell Words and Paths

The parts of `shlex` and `pathlib` that the SDK export uses. `shlexSplit` is
`shlex.split`: words between white space, with quotes and escapes, and no
comments. A `Path` is a root and the names behind it, none of them empty, a
single dot, or with a slash in it. Names of two dots stay: only the operating
system can say where they lead.

## Main definitions

* `shlexSplit`: `shlex.split`.
* `Path`, `Path.ofText`, `Path.str`: `Path`, from a text and back to one.
* `Path.div`, `Path.name`, `Path.relativeTo`, `Path.parents`: Its operations.

## Theorems

* `Path.relativeTo_eq_some_iff`: A path lies under another where it goes on
  from it.
-/

namespace ArduinoBeken

namespace Tools

/-! ### Shell words -/

/-- Where `shlex` is in the text. An escape goes back to a word or to the
double quotes that it stands in. -/
inductive ShlexState where
  | space
  | word
  | quotes (quote : Char)
  | escape (quoted : Bool)
deriving DecidableEq

/-- What separates tokens. -/
def shlexWhitespace : List Char := [' ', '\t', '\r', '\n']

/-- The words from the state on, with the characters of the word read so far. -/
def shlexFrom : ShlexState → List Char → List Char → Except String (List (List Char))
  | .space, _, [] => .ok []
  | .word, token, [] => .ok [token]
  | .quotes _, _, [] => .error "No closing quotation"
  | .escape _, _, [] => .error "No escaped character"
  | .space, _, c :: cs =>
    if c ∈ shlexWhitespace then shlexFrom .space [] cs
    else if c = '\\' then shlexFrom (.escape false) [] cs
    else if c = '"' ∨ c = '\'' then shlexFrom (.quotes c) [] cs
    else shlexFrom .word [c] cs
  | .word, token, c :: cs =>
    if c ∈ shlexWhitespace then (shlexFrom .space [] cs).map (token :: ·)
    else if c = '\\' then shlexFrom (.escape false) token cs
    else if c = '"' ∨ c = '\'' then shlexFrom (.quotes c) token cs
    else shlexFrom .word (token ++ [c]) cs
  | .quotes quote, token, c :: cs =>
    if c = quote then shlexFrom .word token cs
    -- Only double quotes know escapes.
    else if c = '\\' ∧ quote = '"' then shlexFrom (.escape true) token cs
    else shlexFrom (.quotes quote) (token ++ [c]) cs
  | .escape false, token, c :: cs => shlexFrom .word (token ++ [c]) cs
  | .escape true, token, c :: cs =>
    -- Between quotes the escape stays, but before a quote or an escape.
    if c = '\\' ∨ c = '"' then shlexFrom (.quotes '"') (token ++ [c]) cs
    else shlexFrom (.quotes '"') (token ++ ['\\', c]) cs

/-- `shlex.split`, or the text of its `ValueError`. -/
def shlexSplit (line : List Char) : Except String (List (List Char)) :=
  shlexFrom .space [] line

example : shlexSplit "-L 'a b' c\"\\\"d\"\\ e".toList =
    .ok ["-L".toList, "a b".toList, "c\"d e".toList] := by decide

/-! ### Paths -/

/-- What `pathlib` keeps as one name of a path. -/
def Proper (name : List Char) : Prop :=
  name ≠ [] ∧ name ≠ ['.'] ∧ '/' ∉ name

instance (name : List Char) : Decidable (Proper name) :=
  inferInstanceAs (Decidable (_ ∧ _))

/-- One name of a path. -/
abbrev Name := { name : List Char // Proper name }

/-- A name that is written out. -/
def nameOf (text : String) (h : Proper text.toList := by decide) : Name :=
  ⟨text.toList, h⟩

/-- A path: no slash, one or two at its front, and its names. -/
@[ext]
structure Path where
  root : List Char
  names : List Name
deriving DecidableEq

namespace Path

/-- Two slashes at the front are a root of their own, three are one. -/
def rootOf : List Char → List Char
  | '/' :: '/' :: '/' :: _ => ['/']
  | '/' :: '/' :: _ => ['/', '/']
  | '/' :: _ => ['/']
  | _ => []

/-- `Path(text)`. -/
def ofText (text : List Char) : Path where
  root := rootOf text
  names := (splitOn '/' text).filterMap fun name =>
    if h : Proper name then some ⟨name, h⟩ else none

/-- `str(path)`. -/
def str (p : Path) : List Char :=
  if p.root = [] ∧ p.names = [] then ['.']
  else p.root ++ ['/'].intercalate (p.names.map Subtype.val)

/-- `Path.is_absolute`. -/
def isAbsolute (p : Path) : Bool :=
  p.root ≠ []

/-- `path / other`. -/
def div (p q : Path) : Path :=
  if q.isAbsolute then q else { p with names := p.names ++ q.names }

instance : Div Path := ⟨div⟩

/-- `path / name` for one name. -/
def child (p : Path) (name : Name) : Path :=
  { p with names := p.names ++ [name] }

/-- `path.name`, where no name stands for the empty text. -/
def name (p : Path) : Option Name :=
  p.names.getLast?

/-- `path / other.name`. -/
def childOf (p other : Path) : Path :=
  { p with names := p.names ++ other.name.toList }

/-- `path.relative_to(other)`, where none is the `ValueError`. -/
def relativeTo (p other : Path) : Option Path :=
  if p.root = other.root ∧ other.names <+: p.names then
    some { root := [], names := p.names.drop other.names.length }
  else none

/-- The directories above a path, the outermost first. -/
def parents (p : Path) : List Path :=
  p.names.dropLast.inits.map fun names => { p with names := names }

/-- A path lies under another where it goes on from it. -/
theorem relativeTo_eq_some_iff (p other rel : Path) :
    p.relativeTo other = some rel ↔
      rel.root = [] ∧ p = { other with names := other.names ++ rel.names } := by
  rw [relativeTo]
  constructor
  · intro h
    split at h
    next hunder =>
      -- the names of the other path are a prefix of this one's
      obtain ⟨hroot, rest, hnames⟩ := hunder
      rw [Option.some.injEq] at h
      subst h
      refine ⟨rfl, Path.ext hroot ?_⟩
      rw [← hnames, List.drop_left]
    next => exact absurd h (by simp only [reduceCtorEq, not_false_eq_true])
  · rintro ⟨hroot, rfl⟩
    rw [if_pos ⟨rfl, List.prefix_append _ _⟩, List.drop_left]
    exact congrArg some (Path.ext hroot.symm rfl)

example : (ofText "/a//./b/../lib.a".toList).str = "/a/b/../lib.a".toList := by decide

end Path

end Tools

end ArduinoBeken
