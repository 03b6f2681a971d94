import ArduinoBeken.Library.Search
import Mathlib

/-!
# Arduino Strings

The methods of the class `String` that the HTTP client uses, on the characters
of a string up to its terminator. Positions are `int` in the client's code and
`unsigned int` in the methods, so that the `-1` of a failed search, passed on
as a position, lies beyond the end of every string.

The C library searches stop at a terminator, so a string that carries a NUL
among its characters is outside the model.

## Main definitions

* `indexOf`, `lastIndexOf`, `substring`, `remove`, `trim`, `startsWith`,
  `equalsIgnoreCase`, `toLowerCase`, `withoutChar`: The methods.
* `strtol`, `toInt`: The integer a string begins with.

## Theorems

* `indexOf_eq_neg_one_iff`: A search fails when the part does not occur.
* `substring_between`, `substring_from`: A substring by what stands around it.
* `trim_of_pad`, `trim_append_space`: What trimming takes off.
* `trim_trim`: Trimming once is enough.
* `strtol_trim`: Blanks around a number do not change it.
-/

namespace ArduinoBeken

namespace Http

/-- The characters of a `String`. -/
abbrev Text := List Char

/-- A position a method is given, cut to the string it is used in. -/
def clip (s : Text) (position : Int) : Nat :=
  if position < 0 then s.length else min position.toNat s.length

/-- `indexOf` of a string. Nothing is found at the very end. -/
def indexOf (s part : Text) (fromIndex : Int) : Int :=
  if clip s fromIndex = s.length then -1
  else
    match Search.find part (s.drop (clip s fromIndex)) with
    | some n => clip s fromIndex + n
    | none => -1

/-- `indexOf` of a character. -/
def indexOfChar (s : Text) (c : Char) (fromIndex : Int) : Int :=
  indexOf s [c] fromIndex

/-- The last place of a character at or before a position. -/
def lastIndexOf (s : Text) (c : Char) (fromIndex : Int) : Int :=
  if clip s fromIndex = s.length then -1
  else
    match Search.find [c] (s.take (clip s fromIndex + 1)).reverse with
    | some n => clip s fromIndex - n
    | none => -1

/-- `substring(left, right)`, its ends in either order. -/
def substring (s : Text) (left right : Int) : Text :=
  (s.take (max (clip s left) (clip s right))).drop (min (clip s left) (clip s right))

/-- `substring(left)`. -/
def substringFrom (s : Text) (left : Int) : Text :=
  substring s left s.length

/-- `remove(index, count)`. -/
def remove (s : Text) (index count : Nat) : Text :=
  s.take index ++ s.drop (index + count)

/-- `startsWith`. -/
def startsWith (s start : Text) : Bool :=
  start.isPrefixOf s

/-- `tolower`. -/
def toLower (c : Char) : Char :=
  if 'A' ≤ c ∧ c ≤ 'Z' then Char.ofNat (c.toNat + 32) else c

/-- `toLowerCase`. -/
def toLowerCase (s : Text) : Text :=
  s.map toLower

/-- `equalsIgnoreCase`. -/
def equalsIgnoreCase (s t : Text) : Bool :=
  toLowerCase s == toLowerCase t

/-- `isspace`. -/
def isSpace (c : Char) : Bool :=
  c == ' ' || (9 ≤ c.toNat && c.toNat ≤ 13)

/-- `trim`. -/
def trim (s : Text) : Text :=
  ((s.dropWhile isSpace).reverse.dropWhile isSpace).reverse

/-- `replace(find, "")` for one character. -/
def withoutChar (s : Text) (c : Char) : Text :=
  s.filter (· ≠ c)

/-! ### Integers -/

/-- The value of a digit in any base. -/
def digitValue (c : Char) : Option Nat :=
  if '0' ≤ c ∧ c ≤ '9' then some (c.toNat - 48)
  else if 'a' ≤ c ∧ c ≤ 'z' then some (c.toNat - 87)
  else if 'A' ≤ c ∧ c ≤ 'Z' then some (c.toNat - 55)
  else none

/-- The value of the digits a text begins with, from the value so far. -/
def scanDigits (base value : Nat) : Text → Nat
  | [] => value
  | c :: s =>
    match digitValue c with
    | some d => if d < base then scanDigits base (value * base + d) s else value
    | none => value

/-- The text after a hexadecimal prefix. -/
def afterHexPrefix (s : Text) : Text :=
  if s.head? = some '0' ∧ (s[1]? = some 'x' ∨ s[1]? = some 'X') then s.drop 2 else s

/-- The digits that a text begins with, behind a prefix of base 16 if it has one. -/
def magnitude (base : Nat) (s : Text) : Nat :=
  scanDigits base 0 (if base = 16 then afterHexPrefix s else s)

/-- A `long` has 32 bits, and what does not fit is cut to its bounds. -/
def clampLong (v : Int) : Int :=
  max (-2147483648) (min v 2147483647)

/-- A sign and the digits behind it. -/
def signed (base : Nat) (s : Text) : Int :=
  if s.head? = some '-' then -(magnitude base s.tail)
  else if s.head? = some '+' then magnitude base s.tail
  else magnitude base s

/-- `strtol`: blanks, a sign, and the digits the text then begins with. -/
def strtol (base : Nat) (s : Text) : Int :=
  clampLong (signed base (s.dropWhile isSpace))

/-- `toInt`. -/
def toInt (s : Text) : Int :=
  strtol 10 s

/-! ### Positions -/

theorem clip_natCast (s : Text) (n : Nat) : clip s n = min n s.length := by
  rw [clip, if_neg (by omega), Int.toNat_natCast]

theorem clip_neg_one (s : Text) : clip s (-1) = s.length := by
  rw [clip, if_pos (by omega)]

theorem clip_le (s : Text) (position : Int) : clip s position ≤ s.length := by
  unfold clip
  split <;> omega

theorem indexOf_zero (s part : Text) (hs : s ≠ []) :
    indexOf s part 0 = match Search.find part s with
      | some n => (n : Int)
      | none => -1 := by
  have hlen : s.length ≠ 0 := fun h => hs (List.length_eq_zero_iff.1 h)
  have hclip : clip s 0 = 0 := by
    rw [clip, if_neg (by omega)]
    exact Nat.zero_min s.length
  rw [indexOf, hclip, if_neg (by omega), List.drop_zero]
  cases Search.find part s with
  | none => rfl
  | some n => exact Int.zero_add n

/-- A search from a position within the string. -/
theorem indexOf_append (u s part : Text) (hs : s ≠ []) :
    indexOf (u ++ s) part u.length = match Search.find part s with
      | some n => ((u.length + n : Nat) : Int)
      | none => -1 := by
  have hlen : s.length ≠ 0 := fun h => hs (List.length_eq_zero_iff.1 h)
  have hclip : clip (u ++ s) u.length = u.length := by
    rw [clip_natCast, List.length_append]
    omega
  rw [indexOf, hclip, if_neg (by rw [List.length_append]; omega), List.drop_left]
  cases Search.find part s with
  | none => rfl
  | some n => rfl

theorem indexOf_end (s part : Text) : indexOf s part s.length = -1 := by
  rw [indexOf, clip_natCast, Nat.min_self, if_pos rfl]

/-- A search of a whole string fails when the part does not occur. -/
theorem indexOf_eq_neg_one_iff (s part : Text) (hpart : part ≠ []) :
    indexOf s part 0 = -1 ↔ ¬ part <:+: s := by
  by_cases hs : s = []
  · subst hs
    rw [List.infix_nil]
    refine ⟨fun _ => hpart, fun _ => ?_⟩
    exact indexOf_end [] part
  · rw [indexOf_zero s part hs, ← Search.find_eq_none_iff]
    cases h : Search.find part s with
    | none => simp only
    | some n => simp only [reduceCtorEq]

/-- The substring between two marked places. -/
theorem substring_between (u m v : Text) :
    substring (u ++ (m ++ v)) u.length ((u.length + m.length : Nat) : Int) = m := by
  have hlen : (u ++ (m ++ v)).length = u.length + m.length + v.length := by
    rw [List.length_append, List.length_append, Nat.add_assoc]
  rw [substring, clip_natCast, clip_natCast, hlen,
    show max (min u.length (u.length + m.length + v.length))
      (min (u.length + m.length) (u.length + m.length + v.length)) = u.length + m.length by omega,
    show min (min u.length (u.length + m.length + v.length))
      (min (u.length + m.length) (u.length + m.length + v.length)) = u.length by omega,
    ← List.append_assoc, List.take_append_of_le_length (by rw [List.length_append]),
    List.take_of_length_le (by rw [List.length_append]), List.drop_left]

/-- The substring before a marked place. -/
theorem substring_before (m v : Text) : substring (m ++ v) 0 m.length = m := by
  have := substring_between [] m v
  rwa [List.nil_append, List.length_nil, Nat.zero_add] at this

/-- The substring from a marked place on. -/
theorem substring_from (u v : Text) : substringFrom (u ++ v) u.length = v := by
  have := substring_between u v []
  rw [List.append_nil, ← List.length_append] at this
  exact this

/-! ### Blanks -/

theorem dropWhile_of_space (pad s : Text) (h : ∀ c ∈ pad, isSpace c = true) :
    (pad ++ s).dropWhile isSpace = s.dropWhile isSpace := by
  induction pad with
  | nil => rfl
  | cons c pad ih =>
      rw [List.cons_append, List.dropWhile_cons_of_pos (h c List.mem_cons_self),
        ih (fun d hd => h d (List.mem_cons_of_mem c hd))]

theorem dropWhile_of_not_space (s : Text) (h : ∀ c ∈ s, isSpace c = false) :
    s.dropWhile isSpace = s := by
  cases s with
  | nil => rfl
  | cons c s =>
      rw [List.dropWhile_cons_of_neg]
      rw [h c List.mem_cons_self]
      exact Bool.false_ne_true

/-- A word behind blanks is what trimming leaves. -/
theorem trim_of_pad (pad word : Text) (hpad : ∀ c ∈ pad, isSpace c = true)
    (hword : ∀ c ∈ word, isSpace c = false) : trim (pad ++ word) = word := by
  rw [trim, dropWhile_of_space pad word hpad, dropWhile_of_not_space word hword,
    dropWhile_of_not_space word.reverse (fun c hc => hword c (List.mem_reverse.1 hc)),
    List.reverse_reverse]

/-- Blanks behind a text are trimmed. -/
theorem trim_append_space (s pad : Text) (hpad : ∀ c ∈ pad, isSpace c = true) :
    trim (s ++ pad) = trim s := by
  by_cases h : ∀ c ∈ s, isSpace c = true
  · have hnil : ∀ t : Text, (∀ c ∈ t, isSpace c = true) → t.dropWhile isSpace = [] := by
      intro t ht
      have := dropWhile_of_space t [] ht
      rwa [List.append_nil] at this
    rw [trim, trim, dropWhile_of_space s pad h, hnil pad hpad, hnil s h]
  · -- The text ends in something other than blanks, which stays its end.
    have hdrop : (s ++ pad).dropWhile isSpace = s.dropWhile isSpace ++ pad := by
      rw [List.dropWhile_append]
      split
      · rename_i hempty
        rw [List.isEmpty_iff, List.dropWhile_eq_nil_iff] at hempty
        exact absurd hempty h
      · rfl
    rw [trim, trim, hdrop, List.reverse_append, dropWhile_of_space pad.reverse _
      (fun c hc => hpad c (List.mem_reverse.1 hc))]

/-! ### Numbers -/

theorem digitValue_of_space (c : Char) (h : isSpace c = true) : digitValue c = none := by
  have hle : c.toNat ≤ 32 := by
    simp only [isSpace, Bool.or_eq_true, beq_iff_eq, Bool.and_eq_true, decide_eq_true_eq] at h
    rcases h with rfl | h
    · decide
    · omega
  have h0 : ¬ ('0' ≤ c ∧ c ≤ '9') := by
    intro hd
    have : 48 ≤ c.toNat := hd.1
    omega
  have ha : ¬ ('a' ≤ c ∧ c ≤ 'z') := by
    intro hd
    have : 97 ≤ c.toNat := hd.1
    omega
  have hA : ¬ ('A' ≤ c ∧ c ≤ 'Z') := by
    intro hd
    have : 65 ≤ c.toNat := hd.1
    omega
  rw [digitValue, if_neg h0, if_neg ha, if_neg hA]

/-- The text does not go on with a digit, a sign or the letter of a prefix. -/
def EndsNumber (base : Nat) (t : Text) : Prop :=
  ∀ c ∈ t.head?, (∀ d ∈ digitValue c, base ≤ d) ∧ c ≠ '0' ∧ c ≠ 'x' ∧ c ≠ 'X' ∧ c ≠ '-' ∧ c ≠ '+'

theorem endsNumber_of_space (base : Nat) (pad : Text) (h : ∀ c ∈ pad, isSpace c = true) :
    EndsNumber base pad := by
  intro c hc
  have hspace := h c (List.mem_of_mem_head? hc)
  have hne : ∀ d : Char, isSpace d = false → c ≠ d := by
    intro d hd he
    rw [he, hd] at hspace
    exact absurd hspace Bool.false_ne_true
  refine ⟨?_, hne _ rfl, hne _ rfl, hne _ rfl, hne _ rfl, hne _ rfl⟩
  intro d hd
  rw [digitValue_of_space c hspace] at hd
  exact absurd hd (Option.not_mem_none d)

/-- The digits end where something else begins. -/
theorem scanDigits_append (base v : Nat) (s t : Text) (ht : EndsNumber base t) :
    scanDigits base v (s ++ t) = scanDigits base v s := by
  induction s generalizing v with
  | nil =>
      cases t with
      | nil => rfl
      | cons c t =>
          have hc := (ht c rfl).1
          simp only [List.nil_append, scanDigits]
          cases hd : digitValue c with
          | none => rfl
          | some d => exact if_neg (Nat.not_lt.2 (hc d hd))
  | cons c s ih =>
      simp only [List.cons_append, scanDigits]
      cases digitValue c with
      | none => rfl
      | some d => simp only [ih]

theorem afterHexPrefix_append (base : Nat) (s t : Text) (ht : EndsNumber base t) :
    afterHexPrefix (s ++ t) = afterHexPrefix s ++ t := by
  have hhead : ∀ c : Char, t.head? = some c → c ≠ '0' ∧ c ≠ 'x' ∧ c ≠ 'X' := by
    intro c hc
    exact ⟨(ht c hc).2.1, (ht c hc).2.2.1, (ht c hc).2.2.2.1⟩
  -- the prefix is two characters long, so the cases are none, one, and at least two
  rcases s with _ | ⟨c, _ | ⟨d, s⟩⟩
  · rw [List.nil_append, afterHexPrefix, if_neg]
    · rfl
    · rintro ⟨h, -⟩
      exact (hhead '0' h).1 rfl
  · -- the second character comes from what follows, which begins with neither letter
    have hget : ([c] ++ t)[1]? = t.head? := by
      cases t <;> rfl
    have hone : afterHexPrefix [c] = [c] :=
      if_neg (fun h => h.2.elim (fun hx => nomatch hx) (fun hx => nomatch hx))
    rw [hone, afterHexPrefix, hget, if_neg]
    · rintro ⟨-, h | h⟩
      · exact (hhead 'x' h).2.1 rfl
      · exact (hhead 'X' h).2.2 rfl
  -- with two characters of its own the test does not reach what follows
  · by_cases h : some c = some '0' ∧ (some d = some 'x' ∨ some d = some 'X')
    · have hlong : afterHexPrefix (c :: d :: s ++ t) = s ++ t := if_pos h
      have hshort : afterHexPrefix (c :: d :: s) = s := if_pos h
      rw [hlong, hshort]
    · have hlong : afterHexPrefix (c :: d :: s ++ t) = c :: d :: s ++ t := if_neg h
      have hshort : afterHexPrefix (c :: d :: s) = c :: d :: s := if_neg h
      rw [hlong, hshort]

theorem magnitude_append (base : Nat) (s t : Text) (ht : EndsNumber base t) :
    magnitude base (s ++ t) = magnitude base s := by
  unfold magnitude
  split
  · rw [afterHexPrefix_append base s t ht, scanDigits_append base 0 _ t ht]
  · exact scanDigits_append base 0 s t ht

theorem signed_append (base : Nat) (s t : Text) (ht : EndsNumber base t) :
    signed base (s ++ t) = signed base s := by
  cases s with
  | nil =>
      have hminus : t.head? ≠ some '-' := fun h => (ht '-' h).2.2.2.2.1 rfl
      have hplus : t.head? ≠ some '+' := fun h => (ht '+' h).2.2.2.2.2 rfl
      rw [List.nil_append, signed, if_neg hminus, if_neg hplus]
      exact congrArg Int.ofNat (magnitude_append base [] t ht)
  | cons c s =>
      simp only [signed, List.cons_append, List.head?_cons, List.tail_cons,
        magnitude_append base s t ht]
      rw [← List.cons_append, magnitude_append base (c :: s) t ht]
      rfl

/-- A text is what trimming leaves, between blanks. -/
theorem exists_trim_append (s : Text) :
    ∃ pad, s.dropWhile isSpace = trim s ++ pad ∧ ∀ c ∈ pad, isSpace c = true := by
  refine ⟨((s.dropWhile isSpace).reverse.takeWhile isSpace).reverse, ?_, ?_⟩
  · rw [trim, ← List.reverse_append, List.takeWhile_append_dropWhile, List.reverse_reverse]
  · intro c hc
    exact List.mem_takeWhile_imp (List.mem_reverse.1 hc)

/-- What trimming leaves begins with no blank. -/
theorem dropWhile_trim (s : Text) : (trim s).dropWhile isSpace = trim s := by
  rcases exists_trim_append s with ⟨pad, hpad, -⟩
  cases ht : trim s with
  | nil => rfl
  | cons c t =>
      -- The first character left is the first that is not blank.
      have hhead : (s.dropWhile isSpace).head? = some c := by
        rw [hpad, ht]
        rfl
      have hc : isSpace c = false := by
        have := List.head?_dropWhile_not isSpace s
        rw [hhead] at this
        exact this
      rw [List.dropWhile_cons_of_neg (by rw [hc]; exact Bool.false_ne_true)]

/-- Trimming once is enough. -/
theorem trim_trim (s : Text) : trim (trim s) = trim s := by
  have hlast : (trim s).reverse = (s.dropWhile isSpace).reverse.dropWhile isSpace := by
    rw [trim, List.reverse_reverse]
  rw [trim, dropWhile_trim, hlast, List.dropWhile_idempotent, ← hlast, List.reverse_reverse]

/-- Blanks around a number do not change it. -/
theorem strtol_trim (base : Nat) (s : Text) : strtol base (trim s) = strtol base s := by
  rcases exists_trim_append s with ⟨pad, hpad, hspace⟩
  rw [strtol, strtol, dropWhile_trim, hpad,
    signed_append base _ pad (endsNumber_of_space base pad hspace)]

end Http

end ArduinoBeken
