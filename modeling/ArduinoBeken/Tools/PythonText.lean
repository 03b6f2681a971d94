import Mathlib.Data.List.Basic

/-!
# Python's Text and Integers

The parts of Python's `str` and `int` that the tools use, on texts as lists of
characters. `pyInt` follows `int(text, base)`: surrounding white space, of
which it knows less than `strip` does, a sign, a prefix where the base has one,
and digits, which may be grouped by single underscores. Digits may come from
any script.

Case conversion is that of the ASCII letters.

## Main definitions

* `strip`, `upper`, `splitOn`, `splitLines`: The methods of `str`.
* `pyInt`: `int(text, base)`.
* `decimal`, `hexadecimal`: The renderings in formatted strings.

## Theorems

* `pyInt_decimal`: A rendered integer is read back.
-/

namespace ArduinoBeken

namespace Tools

/-- What the tools raise. -/
inductive PyError where
  | keyError (key : String)
  | valueError
  | indexError
  | overflowError
  | runtimeError (text : String)
  | systemExit (text : String)
deriving DecidableEq, Repr

/-! ### Text -/

/-- `str.isspace` of a character. -/
def isSpace (c : Char) : Bool :=
  (9 ≤ c.toNat && c.toNat ≤ 13) || (28 ≤ c.toNat && c.toNat ≤ 32) || c.toNat == 0x85 ||
    c.toNat == 0xA0 || c.toNat == 0x1680 || (0x2000 ≤ c.toNat && c.toNat ≤ 0x200A) ||
    c.toNat == 0x2028 || c.toNat == 0x2029 || c.toNat == 0x202F || c.toNat == 0x205F ||
    c.toNat == 0x3000

/-- A space around an integer. `int` leaves the ASCII characters to the C library, to which
the separators from U+001C to U+001F are none. -/
def isIntSpace (c : Char) : Bool :=
  isSpace c && !(28 ≤ c.toNat && c.toNat ≤ 31)

/-- A text without the spaces of one kind around it. -/
def stripBy (space : Char → Bool) (s : List Char) : List Char :=
  ((s.dropWhile space).reverse.dropWhile space).reverse

/-- `str.lstrip`. -/
def lstrip (s : List Char) : List Char :=
  s.dropWhile isSpace

/-- `str.rstrip`. -/
def rstrip (s : List Char) : List Char :=
  (s.reverse.dropWhile isSpace).reverse

/-- `str.strip`. -/
def strip (s : List Char) : List Char :=
  rstrip (lstrip s)

/-- `str.upper`. -/
def upper (s : List Char) : List Char :=
  s.map Char.toUpper

/-- `str.lower`. -/
def lower (s : List Char) : List Char :=
  s.map Char.toLower

/-- `str.startswith`. -/
def startsWith (s start : List Char) : Bool :=
  start.isPrefixOf s

/-- `str.endswith`. -/
def endsWith (s ending : List Char) : Bool :=
  ending.isSuffixOf s

/-- `part in s`. -/
def contains (s part : List Char) : Bool :=
  s.tails.any (part.isPrefixOf ·)

/-- `s.split(sep)` for a separator of one character. -/
def splitOn (sep : Char) : List Char → List (List Char)
  | [] => [[]]
  | c :: cs =>
    if c = sep then [] :: splitOn sep cs
    else
      match splitOn sep cs with
      | [] => [[c]]
      | field :: fields => (c :: field) :: fields

/-- The characters at which `splitlines` ends a line. -/
def isLineBreak (c : Char) : Bool :=
  (10 ≤ c.toNat && c.toNat ≤ 13) || (28 ≤ c.toNat && c.toNat ≤ 30) || c.toNat == 0x85 ||
    c.toNat == 0x2028 || c.toNat == 0x2029

/-- `str.splitlines`, from the line read so far. A carriage return takes the
line feed behind it along. -/
def splitLinesFrom (line : List Char) : List Char → List (List Char)
  | [] => if line = [] then [] else [line.reverse]
  | '\r' :: '\n' :: cs => line.reverse :: splitLinesFrom [] cs
  | c :: cs =>
    if isLineBreak c then line.reverse :: splitLinesFrom [] cs else splitLinesFrom (c :: line) cs

/-- `str.splitlines`. -/
def splitLines (s : List Char) : List (List Char) :=
  splitLinesFrom [] s

/-! ### Integers -/

/-- The zeros of the decimal digits of every script but ASCII. -/
def decimalZeros : List Nat :=
  [0x660, 0x6f0, 0x7c0, 0x966, 0x9e6, 0xa66, 0xae6, 0xb66, 0xbe6, 0xc66, 0xce6, 0xd66, 0xde6,
    0xe50, 0xed0, 0xf20, 0x1040, 0x1090, 0x17e0, 0x1810, 0x1946, 0x19d0, 0x1a80, 0x1a90, 0x1b50,
    0x1bb0, 0x1c40, 0x1c50, 0xa620, 0xa8d0, 0xa900, 0xa9d0, 0xa9f0, 0xaa50, 0xabf0, 0xff10,
    0x104a0, 0x10d30, 0x11066, 0x110f0, 0x11136, 0x111d0, 0x112f0, 0x11450, 0x114d0, 0x11650,
    0x116c0, 0x11730, 0x118e0, 0x11950, 0x11c50, 0x11d50, 0x11da0, 0x16a60, 0x16ac0, 0x16b50,
    0x1d7ce, 0x1d7d8, 0x1d7e2, 0x1d7ec, 0x1d7f6, 0x1e140, 0x1e2f0, 0x1e950, 0x1fbf0]

/-- `int` first writes decimal digits of any script as ASCII digits. -/
def toAsciiDigit (c : Char) : Char :=
  match decimalZeros.find? fun base => base ≤ c.toNat && c.toNat < base + 10 with
  | some base => Char.ofNat (48 + (c.toNat - base))
  | none => c

/-- The value of a digit in any base up to 36. -/
def digitValue (c : Char) : Option Nat :=
  if '0' ≤ c ∧ c ≤ '9' then some (c.toNat - 48)
  else if 'a' ≤ c ∧ c ≤ 'z' then some (c.toNat - 87)
  else if 'A' ≤ c ∧ c ≤ 'Z' then some (c.toNat - 55)
  else none

/-- The digits of a number, from the value so far. `grouped` tells that an
underscore may not follow, and that the number may not end here. -/
def scanDigits (base value : Nat) (grouped : Bool) : List Char → Option Nat
  | [] => if grouped then none else some value
  | c :: cs =>
    if c = '_' then if grouped then none else scanDigits base value true cs
    else
      match digitValue c with
      | some d => if d < base then scanDigits base (value * base + d) false cs else none
      | none => none

/-- The base a prefix stands for. -/
def prefixBase (c : Char) : Option Nat :=
  if c = 'x' ∨ c = 'X' then some 16
  else if c = 'o' ∨ c = 'O' then some 8
  else if c = 'b' ∨ c = 'B' then some 2
  else none

/-- The rest after a prefix, with the one underscore that may follow it. -/
def afterPrefix : List Char → List Char
  | '_' :: cs => cs
  | cs => cs

/-- The magnitude of an integer. In base 0 the prefix tells the base, and a
decimal number other than zero does not start with a zero. -/
def scanMagnitude (base : Nat) (s : List Char) : Option Nat :=
  match s with
  | '0' :: c :: cs =>
    match prefixBase c with
    | some b =>
        if base = 0 ∨ base = b then scanDigits b 0 true (afterPrefix cs)
        else scanDigits base 0 true s
    | none =>
        -- without a base a leading zero is allowed for zero alone
        if base = 0 then
          match scanDigits 10 0 true s with
          | some 0 => some 0
          | _ => none
        else scanDigits base 0 true s
  | _ => scanDigits (if base = 0 then 10 else base) 0 true s

/-- `int(text, base)`; `none` is the `ValueError`. -/
def pyInt (base : Nat) (s : List Char) : Option Int :=
  match (stripBy isIntSpace s).map toAsciiDigit with
  | '-' :: cs => (scanMagnitude base cs).map fun n => -(n : Int)
  | '+' :: cs => (scanMagnitude base cs).map fun n => (n : Int)
  | cs => (scanMagnitude base cs).map fun n => (n : Int)

/-! ### Rendering -/

/-- `str` of an integer. -/
def decimal (n : Int) : List Char :=
  match n with
  | .ofNat n => Nat.toDigits 10 n
  | .negSucc n => '-' :: Nat.toDigits 10 (n + 1)

/-- `f"0x{n:08x}"`: the sign counts towards the width. -/
def hexadecimal (n : Int) : List Char :=
  match n with
  | .ofNat n => ['0', 'x'] ++ List.leftpad 8 '0' (Nat.toDigits 16 n)
  | .negSucc n => ['0', 'x', '-'] ++ List.leftpad 7 '0' (Nat.toDigits 16 (n + 1))

/-! ### Reading back -/

section Digits

variable (c : Char) (hc : c.isDigit = true)

include hc in
theorem digit_range : 48 ≤ c.toNat ∧ c.toNat ≤ 57 := by
  rw [Char.isDigit_iff_toNat] at hc
  exact hc

include hc in
theorem digit_not_space : isSpace c = false := by
  have h := digit_range c hc
  simp only [isSpace, Bool.or_eq_false_iff, Bool.and_eq_false_iff, decide_eq_false_iff_not,
    beq_eq_false_iff_ne]
  omega

include hc in
theorem digit_not_intSpace : isIntSpace c = false := by
  rw [isIntSpace, digit_not_space c hc, Bool.false_and]

include hc in
theorem digit_toAscii : toAsciiDigit c = c := by
  have h := digit_range c hc
  have hnone : decimalZeros.find? (fun base => base ≤ c.toNat && c.toNat < base + 10) = none := by
    rw [List.find?_eq_none]
    intro base hbase
    have hlow : ∀ b ∈ decimalZeros, 58 ≤ b := by decide
    have hb := hlow base hbase
    simp only [Bool.and_eq_true, decide_eq_true_eq, not_and]
    omega
  rw [toAsciiDigit, hnone]

include hc in
theorem digit_value : digitValue c = some (c.toNat - 48) := by
  have h := digit_range c hc
  rw [digitValue, if_pos]
  exact ⟨UInt32.le_iff_toNat_le.2 h.1, UInt32.le_iff_toNat_le.2 h.2⟩

include hc in
theorem digit_ne (d : Char) (hd : d.toNat < 48 ∨ 57 < d.toNat) : c ≠ d := by
  rintro rfl
  have h := digit_range c hc
  omega

end Digits

/-- Digits are scanned to the number they denote. -/
theorem scanDigits_digits (cs : List Char) (value : Nat) (grouped : Bool)
    (hcs : ∀ c ∈ cs, c.isDigit = true) (hne : grouped = true → cs ≠ []) :
    scanDigits 10 value grouped cs = some (Nat.ofDigitChars 10 cs value) := by
  -- induction on the digits, with the value read so far
  induction cs generalizing value grouped with
  | nil =>
      cases grouped with
      | true => exact absurd rfl (hne rfl)
      | false => rfl
  | cons c cs ih =>
      have hc := hcs c (List.mem_cons_self ..)
      have h := digit_range c hc
      rw [scanDigits, if_neg (digit_ne c hc '_' (by decide)), digit_value c hc]
      simp only [if_pos (by omega : c.toNat - 48 < 10)]
      rw [ih _ _ (fun d hd => hcs d (List.mem_cons_of_mem c hd)) (fun hf => absurd hf (by simp)),
        Nat.ofDigitChars_cons, Nat.mul_comm]
      rfl

theorem toDigits_digits (n : Nat) : ∀ c ∈ Nat.toDigits 10 n, c.isDigit = true :=
  fun _ hc => Nat.isDigit_of_mem_toDigits (by decide) (by decide) hc

theorem scanMagnitude_digits (n : Nat) : scanMagnitude 10 (Nat.toDigits 10 n) = some n := by
  have hdigits := toDigits_digits n
  have hscan : scanDigits 10 0 true (Nat.toDigits 10 n) = some n := by
    rw [scanDigits_digits _ 0 true hdigits (fun _ => Nat.toDigits_ne_nil),
      Nat.ofDigitChars_ten_toDigits]
  revert hscan
  generalize Nat.toDigits 10 n = cs at hdigits
  intro hscan
  unfold scanMagnitude
  split
  · rename_i c cs
    have hc := hdigits c (by simp)
    -- a digit is no letter of a prefix
    have hbase : prefixBase c = none := by
      rw [prefixBase, if_neg, if_neg, if_neg]
      · rintro (h | h)
        · exact digit_ne c hc 'b' (by decide) h
        · exact digit_ne c hc 'B' (by decide) h
      · rintro (h | h)
        · exact digit_ne c hc 'o' (by decide) h
        · exact digit_ne c hc 'O' (by decide) h
      · rintro (h | h)
        · exact digit_ne c hc 'x' (by decide) h
        · exact digit_ne c hc 'X' (by decide) h
    simp only [hbase]
    exact hscan
  · exact hscan

/-- Spaces are stripped from nothing that has none. -/
theorem stripBy_eq_self (space : Char → Bool) (s : List Char) (h : ∀ c ∈ s, space c = false) :
    stripBy space s = s := by
  have hdrop : ∀ t : List Char, (∀ c ∈ t, space c = false) → t.dropWhile space = t := by
    intro t ht
    cases t with
    | nil => rfl
    | cons c t => rw [List.dropWhile_cons_of_neg (by simp [ht c])]
  rw [stripBy, hdrop s h, hdrop _ (fun c hc => h c (List.mem_reverse.1 hc)), List.reverse_reverse]

theorem strip_eq_self (s : List Char) (h : ∀ c ∈ s, isSpace c = false) : strip s = s :=
  stripBy_eq_self isSpace s h

theorem map_toAscii_digits (n : Nat) :
    (Nat.toDigits 10 n).map toAsciiDigit = Nat.toDigits 10 n := by
  have h : (Nat.toDigits 10 n).map toAsciiDigit = (Nat.toDigits 10 n).map id :=
    List.map_congr_left fun c hc => digit_toAscii c (toDigits_digits n c hc)
  rw [h, List.map_id]

/-- A number rendered in decimal is read back. -/
theorem pyInt_decimal (n : Int) : pyInt 10 (decimal n) = some n := by
  cases n with
  | ofNat n =>
      have hdigits := toDigits_digits n
      rw [pyInt, decimal,
        stripBy_eq_self _ _ (fun c hc => digit_not_intSpace c (hdigits c hc)), map_toAscii_digits]
      -- the digits have no sign in front
      split
      · rename_i cs hcs
        exact absurd (hdigits '-' (by rw [hcs]; simp)) (by decide)
      · rename_i cs hcs
        exact absurd (hdigits '+' (by rw [hcs]; simp)) (by decide)
      · rw [scanMagnitude_digits]
        rfl
  | negSucc n =>
      have hdigits := toDigits_digits (n + 1)
      have hspace : ∀ c ∈ '-' :: Nat.toDigits 10 (n + 1), isIntSpace c = false := by
        intro c hc
        rcases List.mem_cons.1 hc with rfl | hc
        · decide
        · exact digit_not_intSpace c (hdigits c hc)
      have hminus : toAsciiDigit '-' = '-' := by decide
      rw [pyInt, decimal, stripBy_eq_self _ _ hspace, List.map_cons, map_toAscii_digits, hminus]
      simp only [scanMagnitude_digits]
      rfl

end Tools

end ArduinoBeken
