import ArduinoBeken.Library.CheckedBytes
import ArduinoBeken.Core.Print

/-!
# Addresses and Their Texts

The class `IPAddress` as far as it turns texts into addresses and addresses into texts. An
address has sixteen bytes, the last four of which are those of IPv4, and the readers write into
them while they go on. Every access is checked, and there is none outside: `fromString_safe`.
A text that is refused leaves its mark on the bytes all the same, but not on the kind.

A reader of IPv6 keeps the place of the double colon, stores the fields one behind the other,
and moves those behind the double colon to the end when the text is over.

## Main definitions

* `IPAddress`: The address.
* `fromString4`, `fromString6`, `fromString`: The readers.
* `toString4`, `toString6`, `toString`: The full texts.
* `longestRun`, `printTo`: The canonical text.

## Theorems

* `fromString_safe`: No text leads the readers out of the bytes.
-/

namespace ArduinoBeken

namespace Core

open CheckedBytes (Block Fault byte store)
open ArduinoBeken.Core.Stream (isDigit)
open Print (numeral)

/-- The two kinds of address. -/
inductive IPType where
  | v4
  | v6
deriving DecidableEq, Repr

/-- An address in sixteen bytes. One of IPv4 has the last four. -/
structure IPAddress where
  type : IPType := .v4
  bytes : Block 16 := Block.zeros 16
deriving DecidableEq

namespace IPAddress

/-! ### Readers -/

/-- What the reader of IPv4 keeps: the number so far, if any, the dots, and the bytes. -/
structure Scan4 where
  acc : Int := -1
  dots : Nat := 0
  bytes : Block 16 := Block.zeros 16

/-- The number with a digit more. -/
def Scan4.append (st : Scan4) (c : UInt8) : Scan4 :=
  { st with acc := if st.acc < 0 then c.toNat - 48 else st.acc * 10 + (c.toNat - 48) }

/-- The loop of `fromString4`, and whether it came to the end of the text. -/
def scan4 : List UInt8 → Scan4 → Except Fault (Bool × Scan4)
  | [], st => .ok (true, st)
  | c :: address, st =>
    if isDigit c then
      if 255 < (st.append c).acc then .ok (false, st.append c) else scan4 address (st.append c)
    else if c = 46 then
      if st.dots = 3 then .ok (false, st)
      else if st.acc < 0 then .ok (false, st)
      else
        match store st.bytes (12 + st.dots) [UInt8.ofInt st.acc] with
        | .ok bytes => scan4 address { acc := -1, dots := st.dots + 1, bytes }
        | .error e => .error e
    else .ok (false, st)

/-- `fromString4`: four numbers with three dots. The bytes are written on the way, also if it
fails in the end. -/
def fromString4 (a : IPAddress) (address : List UInt8) : Except Fault (Bool × IPAddress) := do
  let (ended, st) ← scan4 address {}
  if ended = false ∨ st.dots ≠ 3 ∨ st.acc < 0 then return (false, { a with bytes := st.bytes })
  let bytes ← store st.bytes (12 + 3) [UInt8.ofInt st.acc]
  return (true, { type := .v4, bytes })

/-- `tolower`. -/
def tolower (c : UInt8) : UInt8 :=
  if 65 ≤ c && c ≤ 90 then c + 32 else c

/-- `isalnum`. -/
def isalnum (c : UInt8) : Bool :=
  isDigit c || (65 ≤ c && c ≤ 90) || (97 ≤ c && c ≤ 122)

/-- The value of a hexadecimal digit, of either case. -/
def hexValue (c : UInt8) : Option Nat :=
  let c := tolower c
  if isalnum c && c ≤ 102 then
    let c := if 97 ≤ c then c - (97 - 48 - 10) else c
    some (c.toNat - 48)
  else none

/-- What the reader of IPv6 keeps: the field so far, the colons, the field in front of which the
double colon stands, and the bytes. -/
structure Scan6 where
  acc : Nat := 0
  colons : Nat := 0
  double_colons : Option Nat := none
  bytes : Block 16

/-- The field with a digit more. -/
def Scan6.append (st : Scan6) (d : Nat) : Scan6 :=
  { st with acc := st.acc * 16 + d }

/-- The place of a double colon is remembered. -/
def Scan6.remember (st : Scan6) : Scan6 :=
  { st with double_colons := some (st.colons + if st.acc = 0 then 0 else 1) }

/-- A field is stored behind those there are. -/
def Scan6.put (st : Scan6) : Except Fault (Block 16) :=
  store st.bytes (st.colons * 2) [UInt8.ofNat (st.acc / 256), UInt8.ofNat (st.acc % 256)]

/-- The state behind a colon that ends a field, unless there are too many. -/
def Scan6.separate (st : Scan6) : Except Fault (Option Scan6) :=
  if st.colons = 7 then .ok none
  else do
    let bytes ← st.put
    return some { st with acc := 0, colons := st.colons + 1, bytes }

/-- The loop of `fromString6`, and whether it came to the end of the text. -/
def scan6 : List UInt8 → Scan6 → Except Fault (Bool × Scan6)
  | [], st => .ok (true, st)
  | c :: address, st =>
    match hexValue c with
    | some d =>
      if 0xffff < (st.append d).acc then .ok (false, st.append d)
      else scan6 address (st.append d)
    | none =>
      if c = 58 then
        match address with
        | [] => .ok (false, st)
        -- a second colon directly behind: the gap, of which there may be one only
        | d :: address' =>
          if d = 58 then
            if st.double_colons.isSome ∨ address'.head? = some 58 then .ok (false, st)
            else
              match st.remember.separate with
              | .ok (some st) => scan6 address' st
              | .ok none => .ok (false, st.remember)
              | .error e => .error e
          else
            match st.separate with
            | .ok (some st) => scan6 (d :: address') st
            | .ok none => .ok (false, st)
            | .error e => .error e
      else .ok (false, st)

/-- The bytes from one place on are moved to a later one, the last first. -/
def moveUp (source dest : Nat) : Nat → Block 16 → Except Fault (Block 16)
  | 0, bytes => .ok bytes
  | i + 1, bytes => do
    let b ← byte bytes.1 (source + i)
    let bytes ← store bytes (dest + i) [b]
    moveUp source dest i bytes

/-- So many bytes are cleared from a place on. -/
def clearFrom : Nat → Nat → Block 16 → Except Fault (Block 16)
  | _, 0, bytes => .ok bytes
  | i, n + 1, bytes => do
    let bytes ← store bytes i [0]
    clearFrom (i + 1) n bytes

/-- The fields behind the double colon are moved to the end, and the gap is cleared. -/
def spread (place colons : Nat) (bytes : Block 16) : Except Fault (Block 16) := do
  let dest := 16 - colons * 2 + place * 2
  let bytes ← moveUp (place * 2) dest (colons * 2 - place * 2) bytes
  clearFrom (place * 2) (dest - place * 2) bytes

/-- `fromString6` behind its loop, at the end of the text. -/
def Scan6.conclude (a : IPAddress) (st : Scan6) : Except Fault (Bool × IPAddress) :=
  if (st.double_colons = none ∧ st.colons ≠ 7) ∨ (st.double_colons.isSome ∧ 6 < st.colons) then
    .ok (false, { a with bytes := st.bytes })
  else do
    let bytes ← st.put
    match st.double_colons with
    | none => return (true, { type := .v6, bytes })
    | some place =>
      let bytes ← spread place (st.colons + 1) bytes
      return (true, { type := .v6, bytes })

/-- `fromString6`: eight fields, or fewer with a gap. -/
def fromString6 (a : IPAddress) (address : List UInt8) : Except Fault (Bool × IPAddress) := do
  let (ended, st) ← scan6 address { bytes := a.bytes }
  if ended then st.conclude a else return (false, { a with bytes := st.bytes })

/-- `fromString`: the text is tried as one of IPv4 first. -/
def fromString (a : IPAddress) (address : List UInt8) : Except Fault (Bool × IPAddress) := do
  let (found, a) ← fromString4 a address
  if found then return (true, a) else fromString6 a address

/-! ### Texts -/

/-- The byte of the address, of which there are sixteen. -/
def byteAt (a : IPAddress) (i : Nat) : Nat :=
  (a.bytes.1.getD i 0).toNat

/-- A digit of base 16, in lower case. -/
def hexDigit (n : Nat) : UInt8 :=
  UInt8.ofNat (if n < 10 then 48 + n else 97 + n - 10)

/-- `%02x`. -/
def hex2 (n : Nat) : List UInt8 :=
  [hexDigit (n / 16), hexDigit (n % 16)]

/-- `toString4`, in its buffer of 16 characters with the terminator. -/
def toString4 (a : IPAddress) : List UInt8 :=
  (numeral 10 (a.byteAt 12) ++ 46 :: numeral 10 (a.byteAt 13) ++ 46 :: numeral 10 (a.byteAt 14) ++
    46 :: numeral 10 (a.byteAt 15)).take 15

/-- The text of two bytes of an address in `toString6`. -/
def fullField (a : IPAddress) (f : Nat) : List UInt8 :=
  hex2 (a.byteAt (f * 2)) ++ hex2 (a.byteAt (f * 2 + 1))

/-- `toString6`, in its buffer of 40 characters with the terminator. -/
def toString6 (a : IPAddress) : List UInt8 :=
  (a.fullField 0 ++ 58 :: a.fullField 1 ++ 58 :: a.fullField 2 ++ 58 :: a.fullField 3 ++
    58 :: a.fullField 4 ++ 58 :: a.fullField 5 ++ 58 :: a.fullField 6 ++
    58 :: a.fullField 7).take 39

/-- `toString`, by the kind of address. -/
def toString (a : IPAddress) : List UInt8 :=
  match a.type with
  | .v4 => a.toString4
  | .v6 => a.toString6

/-- The runs of zero fields: the longest so far, and the one that goes on. -/
structure Runs where
  longest_start : Int := -1
  longest_length : Int := 1
  current_start : Int := -1
  current_length : Int := 0
deriving DecidableEq, Repr

/-- One field in the search for the longest run. -/
def Runs.next (a : IPAddress) (r : Runs) (f : Nat) : Runs :=
  if a.byteAt (f * 2) = 0 ∧ a.byteAt (f * 2 + 1) = 0 then
    let r :=
      if r.current_start = -1 then { r with current_start := f, current_length := 1 }
      else { r with current_length := r.current_length + 1 }
    if r.longest_length < r.current_length then
      { r with longest_start := r.current_start, longest_length := r.current_length }
    else r
  else { r with current_start := -1 }

/-- The longest run of zero fields, the first of several. -/
def longestRun (a : IPAddress) : Runs :=
  (List.range 8).foldl (Runs.next a) {}

/-- What `printTo` prints of two bytes of an address. -/
def shortField (a : IPAddress) (f : Nat) : List UInt8 :=
  let c1 := a.byteAt (f * 2) / 16
  let c2 := a.byteAt (f * 2) % 16
  let c3 := a.byteAt (f * 2 + 1) / 16
  let c4 := a.byteAt (f * 2 + 1) % 16
  (if 0 < c1 then [hexDigit c1] else []) ++ (if 0 < c1 ∨ 0 < c2 then [hexDigit c2] else []) ++
    (if 0 < c1 ∨ 0 < c2 ∨ 0 < c3 then [hexDigit c3] else []) ++ [hexDigit c4]

/-- One turn of the loop of `printTo`. -/
def printField (a : IPAddress) (r : Runs) (f : Nat) : List UInt8 :=
  if (f : Int) < r.longest_start ∨ r.longest_start + r.longest_length ≤ f then
    a.shortField f ++ if f < 7 then [58] else []
  else if (f : Int) = r.longest_start then
    (if r.longest_start = 0 then [58] else []) ++ [58]
  else []

/-- `printTo`: the canonical text. -/
def printTo (a : IPAddress) : List UInt8 :=
  match a.type with
  | .v6 => (List.range 8).flatMap (a.printField a.longestRun)
  | .v4 =>
    (List.range 3).flatMap (fun i => numeral 10 (a.byteAt (12 + i)) ++ [46]) ++
      numeral 10 (a.byteAt 15)

/-! ### Inside the bytes -/

theorem scan4_safe (address : List UInt8) (st : Scan4) (h : st.dots ≤ 3) :
    ∃ ended st', scan4 address st = .ok (ended, st') ∧ st'.dots ≤ 3 := by
  -- by induction on the text; the bound on the dots keeps the store inside the array
  induction address generalizing st with
  | nil => exact ⟨true, st, rfl, h⟩
  | cons c address ih =>
      rw [scan4]
      by_cases hdigit : isDigit c = true
      · rw [if_pos hdigit]
        split_ifs
        · exact ⟨false, _, rfl, h⟩
        · exact ih _ h
      · rw [if_neg hdigit]
        by_cases hdot : c = 46
        · rw [if_pos hdot]
          by_cases hdots : st.dots = 3
          · rw [if_pos hdots]
            exact ⟨false, st, rfl, h⟩
          · rw [if_neg hdots]
            by_cases hacc : st.acc < 0
            · rw [if_pos hacc]
              exact ⟨false, st, rfl, h⟩
            · rw [if_neg hacc]
              obtain ⟨bytes, hstore⟩ := CheckedBytes.exists_store st.bytes (12 + st.dots)
                [UInt8.ofInt st.acc] (by rw [List.length_singleton]; omega)
              rw [hstore]
              exact ih _ (by dsimp only; omega)
        · rw [if_neg hdot]
          exact ⟨false, st, rfl, h⟩

/-- The colons leave room for a field, and the double colon is not behind them. -/
def Scan6.Sound (st : Scan6) : Prop :=
  st.colons ≤ 7 ∧ ∀ place ∈ st.double_colons, place ≤ st.colons

theorem Scan6.put_safe {st : Scan6} (h : st.colons ≤ 7) : ∃ bytes, st.put = .ok bytes :=
  CheckedBytes.exists_store _ _ _ (by
    rw [List.length_cons, List.length_singleton]
    omega)

/-- A field that is ended is stored inside the bytes, or the text is refused. -/
theorem Scan6.separate_safe {st : Scan6} (h : st.colons ≤ 7) :
    st.separate = .ok none ∨ ∃ bytes, st.colons < 7 ∧ st.put = .ok bytes ∧
      st.separate = .ok (some { st with acc := 0, colons := st.colons + 1, bytes }) := by
  rw [Scan6.separate]
  by_cases h7 : st.colons = 7
  · rw [if_pos h7]
    exact Or.inl rfl
  · obtain ⟨bytes, hput⟩ := Scan6.put_safe h
    rw [if_neg h7, hput]
    exact Or.inr ⟨bytes, by omega, rfl, rfl⟩

theorem scan6_safe (address : List UInt8) (st : Scan6) (h : st.Sound) :
    ∃ ended st', scan6 address st = .ok (ended, st') ∧ (ended = true → st'.Sound) := by
  -- the loop takes one character or the two of a double colon
  induction hn : address.length using Nat.strong_induction_on generalizing address st with
  | _ n ih =>
    obtain ⟨hcolons, hplace⟩ := h
    have hrefused : ∀ st' : Scan6, false = true → st'.Sound := fun _ h => absurd h (by decide)
    cases address with
    | nil => exact ⟨true, st, rfl, fun _ => ⟨hcolons, hplace⟩⟩
    | cons c address =>
        rw [List.length_cons] at hn
        rw [scan6.eq_def]
        dsimp only
        cases hexValue c with
        | some d =>
            dsimp only
            split_ifs
            · exact ⟨false, _, rfl, hrefused _⟩
            · exact ih address.length (by omega) address _ ⟨hcolons, hplace⟩ rfl
        | none =>
            dsimp only
            by_cases hcolon : c = 58
            · rw [if_pos hcolon]
              cases address with
              | nil => exact ⟨false, st, rfl, hrefused _⟩
              | cons d address =>
                  rw [List.length_cons] at hn
                  dsimp only
                  -- the only store is at a colon, and the ninth field is refused before it
                  by_cases hd : d = 58
                  · rw [if_pos hd]
                    split_ifs
                    · exact ⟨false, st, rfl, hrefused _⟩
                    · rcases @Scan6.separate_safe st.remember hcolons with
                        hnone | ⟨bytes, hlt, -, hsome⟩
                      · rw [hnone]
                        exact ⟨false, _, rfl, hrefused _⟩
                      · rw [hsome]
                        refine ih address.length (by omega) _ _ ⟨hlt, ?_⟩ rfl
                        intro place hp
                        rw [← Option.some_inj.1 hp]
                        change st.colons + (if st.acc = 0 then 0 else 1) ≤ st.colons + 1
                        split_ifs <;> omega
                  · rw [if_neg hd]
                    rcases Scan6.separate_safe hcolons with hnone | ⟨bytes, hlt, -, hsome⟩
                    · rw [hnone]
                      exact ⟨false, st, rfl, hrefused _⟩
                    · rw [hsome]
                      exact ih (d :: address).length (by rw [List.length_cons]; omega) _ _
                        ⟨hlt, fun place hp => Nat.le_succ_of_le (hplace place hp)⟩ rfl
            · rw [if_neg hcolon]
              exact ⟨false, st, rfl, hrefused _⟩

/-- Bytes are moved up inside the bytes there are: those behind the destination stay in their
    order, and those in front of it are untouched. -/
theorem moveUp_spec (source dest n : Nat) (b : Block 16) (hsd : source ≤ dest)
    (hend : dest + n ≤ 16) :
    ∃ b', moveUp source dest n b = .ok b' ∧
      ∀ k < 16, b'.1[k]? =
        if dest ≤ k ∧ k < dest + n then b.1[source + (k - dest)]? else b.1[k]? := by
  -- from the top down: each step moves the highest byte of the block that is left
  induction n generalizing b with
  | zero =>
      refine ⟨b, rfl, fun k _ => ?_⟩
      rw [if_neg (by omega)]
  | succ n ih =>
      have hlt : source + n < b.1.length := by
        rw [b.2]
        omega
      have hbyte : byte b.1 (source + n) = .ok b.1[source + n] :=
        (CheckedBytes.byte_eq_ok _ _ _).2 (List.getElem?_eq_getElem hlt)
      obtain ⟨b1, hstore⟩ := CheckedBytes.exists_store b (dest + n) [b.1[source + n]]
        (by rw [List.length_singleton]; omega)
      have hb1 := ((CheckedBytes.store_eq_ok _ _ _ _).1 hstore).2
      have hset : b1.1 = b.1.set (dest + n) b.1[source + n] := by
        rw [hb1, List.set_eq_take_append_cons_drop, if_pos (by rw [b.2]; omega),
          List.append_assoc, List.length_singleton]
        rfl
      obtain ⟨b', hmove, hget⟩ := ih b1 (by omega)
      refine ⟨b', ?_, fun k hk => ?_⟩
      · rw [moveUp, hbyte]
        change (store b (dest + n) [b.1[source + n]] >>= fun bytes =>
          moveUp source dest n bytes) = _
        rw [hstore]
        exact hmove
      · rw [hget k hk, hset]
        by_cases hin : dest ≤ k ∧ k < dest + n
        · -- what is read was not overwritten, as it stands below what was
          rw [if_pos hin, if_pos (by omega), List.getElem?_set_ne (by omega)]
        · rw [if_neg hin]
          by_cases hk' : dest + n = k
          · rw [if_pos (by omega), ← hk', List.getElem?_set_self (by rw [b.2]; omega),
              Nat.add_sub_cancel_left, List.getElem?_eq_getElem hlt]
          · rw [if_neg (by omega), List.getElem?_set_ne hk']

theorem clearFrom_spec (i n : Nat) (b : Block 16) (h : i + n ≤ 16) :
    ∃ b', clearFrom i n b = .ok b' ∧
      ∀ k < 16, b'.1[k]? = if i ≤ k ∧ k < i + n then some 0 else b.1[k]? := by
  -- from the bottom up
  induction n generalizing i b with
  | zero =>
      refine ⟨b, rfl, fun k _ => ?_⟩
      rw [if_neg (by omega)]
  | succ n ih =>
      obtain ⟨b1, hstore⟩ := CheckedBytes.exists_store b i [0]
        (by rw [List.length_singleton]; omega)
      have hb1 := ((CheckedBytes.store_eq_ok _ _ _ _).1 hstore).2
      have hset : b1.1 = b.1.set i 0 := by
        rw [hb1, List.set_eq_take_append_cons_drop, if_pos (by rw [b.2]; omega),
          List.append_assoc, List.length_singleton]
        rfl
      obtain ⟨b', hclear, hget⟩ := ih (i + 1) b1 (by omega)
      refine ⟨b', ?_, fun k hk => ?_⟩
      · rw [clearFrom, hstore]
        exact hclear
      · rw [hget k hk, hset]
        by_cases hin : i + 1 ≤ k ∧ k < i + 1 + n
        · rw [if_pos hin, if_pos (by omega)]
        · rw [if_neg hin]
          by_cases hk' : i = k
          · rw [if_pos (by omega), ← hk', List.getElem?_set_self (by rw [b.2]; omega)]
          · rw [if_neg (by omega), List.getElem?_set_ne hk']

/-- The bytes behind the place stand at the end, with zeros in front of them. -/
theorem spread_spec (place colons : Nat) (b : Block 16) (hplace : place ≤ colons)
    (hcolons : colons ≤ 8) :
    ∃ b', spread place colons b = .ok b' ∧
      b'.1 = b.1.take (place * 2) ++ List.replicate (16 - colons * 2) 0 ++
        (b.1.drop (place * 2)).take (colons * 2 - place * 2) := by
  obtain ⟨b1, hmove, hget1⟩ := moveUp_spec (place * 2)
    (16 - colons * 2 + place * 2) (colons * 2 - place * 2) b (by omega) (by omega)
  obtain ⟨b2, hclear, hget2⟩ := clearFrom_spec (place * 2)
    (16 - colons * 2 + place * 2 - place * 2) b1 (by omega)
  refine ⟨b2, ?_, ?_⟩
  · rw [spread, hmove]
    exact hclear
  -- position by position: in front of the gap, in it, behind it
  · have hlen := b.2
    apply List.ext_getElem?
    intro k
    by_cases hk : k < 16
    · rw [hget2 k hk, hget1 k hk, List.getElem?_append, List.getElem?_append,
        List.length_append, List.length_take, List.length_replicate, hlen, List.getElem?_take,
        List.getElem?_take, List.getElem?_replicate, List.getElem?_drop]
      split_ifs <;> first | rfl | omega | (congr 1; omega)
    · rw [List.getElem?_eq_none (by rw [b2.2]; omega), List.getElem?_eq_none]
      simp only [List.length_append, List.length_take, List.length_replicate, List.length_drop,
        hlen]
      omega

/-- No text leads the readers out of the bytes of the address. -/
theorem fromString_safe (a : IPAddress) (address : List UInt8) :
    ∃ r, fromString a address = .ok r := by
  -- the scanner of four numbers is tried on every text first
  have h4 : ∃ r, fromString4 a address = .ok r := by
    obtain ⟨ended, st, hscan, hdots⟩ := scan4_safe address {} (by decide)
    rw [fromString4, hscan]
    by_cases hbad : ended = false ∨ st.dots ≠ 3 ∨ st.acc < 0
    · exact ⟨_, if_pos hbad⟩
    · obtain ⟨bytes, hstore⟩ := CheckedBytes.exists_store st.bytes (12 + 3) [UInt8.ofInt st.acc]
        (Nat.le_refl 16)
      refine ⟨(true, { type := .v4, bytes }), ?_⟩
      change (if _ then _ else _) = _
      rw [if_neg hbad, hstore]
      rfl
  -- the other one only where it has found nothing
  have h6 : ∀ b : IPAddress, ∃ r, fromString6 b address = .ok r := by
    intro b
    obtain ⟨ended, st, hscan, hsound⟩ := scan6_safe address { bytes := b.bytes }
      ⟨Nat.zero_le 7, fun place hp => absurd hp (by simp)⟩
    rw [fromString6, hscan]
    cases ended with
    | false => exact ⟨_, rfl⟩
    | true =>
        obtain ⟨hcolons, hplace⟩ := hsound rfl
        obtain ⟨bytes, hput⟩ := Scan6.put_safe hcolons
        change ∃ r, st.conclude b = .ok r
        rw [Scan6.conclude, hput]
        split_ifs with hbad
        · exact ⟨_, rfl⟩
        -- without a double colon nothing is moved
        · cases hdouble : st.double_colons with
          | none => exact ⟨_, rfl⟩
          | some place =>
              rw [hdouble, not_or] at hbad
              have hle := hplace place hdouble
              obtain ⟨bytes', hspread, -⟩ := spread_spec place
                (st.colons + 1) bytes (by omega) (by omega)
              refine ⟨(true, { type := .v6, bytes := bytes' }), ?_⟩
              change (spread place (st.colons + 1) bytes >>= fun bytes =>
                Except.ok (true, ({ type := .v6, bytes } : IPAddress))) = _
              rw [hspread]
              rfl
  obtain ⟨⟨found, b⟩, hfound⟩ := h4
  rw [fromString, hfound]
  cases found with
  | true => exact ⟨_, rfl⟩
  | false => exact h6 b

end IPAddress

end Core

end ArduinoBeken
