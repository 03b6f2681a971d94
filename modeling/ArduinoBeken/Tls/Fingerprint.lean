import ArduinoBeken.Tls.HostName
import Mathlib.Data.List.TakeWhile

/-!
# The Fingerprint of a Certificate

`verify_ssl_fingerprint` reads a SHA-256 digest from a text of hexadecimal pairs, each behind
spaces or colons, and compares it with the digest of the certificate of the peer.

The text is read up to its 32nd pair and no further, so whatever stands behind it goes by
unseen. Nothing outside the text is read. Its length is kept in an `int`.

## Main definitions

* `verifySslFingerprint`: The check, with `none` for a read outside the text.
* `Spells`: A text of pairs, each behind separators.
* `Matches`: A text that spells the digest, with separators behind it.
* `Closed`: The texts with nothing but separators behind the digest they spell.

## Theorems

* `readBytes_eq`: The loop over positions reads a text from its front to its end.
* `verifySslFingerprint_eq`: What is accepted; no read is outside the text.
* `fingerprint_accepts_iff`: The check is right exactly on the closed texts.
* `trailing_text_accepted`: A text that is accepted.
-/

namespace ArduinoBeken.Tls

/-- The value of a digit. -/
def parseHexNibble (pb : Char) : Option UInt8 :=
  if '0' ≤ pb ∧ pb ≤ '9' then some (UInt8.ofNat (pb.toNat - '0'.toNat))
  else if 'a' ≤ pb ∧ pb ≤ 'f' then some (UInt8.ofNat (pb.toNat - 'a'.toNat + 10))
  else if 'A' ≤ pb ∧ pb ≤ 'F' then some (UInt8.ofNat (pb.toNat - 'A'.toNat + 10))
  else none

/-- What may stand between two bytes. -/
def isSeparator (c : Char) : Bool := c == ' ' || c == ':'

/-- `strlen` in an `int`. What is subtracted from it later overflows for no text of less than
`2 ^ 31` characters. -/
def textLength (fp : CStr) : Int := Int.bmod fp.length (2 ^ 32)

/-- The loop over separators. The first argument bounds its turns; `none` stands for a read
outside the text, or for too many turns. -/
def skipSeparators (fp : CStr) (len : Int) : Nat → Nat → Option Nat
  | 0, _ => none
  | fuel + 1, pos =>
      if (pos : Int) < len then
        match fp[pos]? with
        | none => none
        | some c => if isSeparator c then skipSeparators fp len fuel (pos + 1) else some pos
      else some pos

/-- A turn of the outer loop: the byte and the next position, or `return false`. The two
characters are read in any case, for the message about them. -/
def readPair (fp : CStr) (len : Int) (pos : Nat) : Option (Option (UInt8 × Nat)) :=
  match skipSeparators fp len (fp.length + 1) pos with
  | none => none
  | some pos =>
      if (pos : Int) > len - 2 then some none
      else
        match fp[pos]?, fp[pos + 1]? with
        | some a, some b =>
            match parseHexNibble a, parseHexNibble b with
            | some high, some low => some (some (low ||| high <<< 4, pos + 2))
            | _, _ => some none
        | _, _ => none

/-- So many bytes of a text, from a place on. -/
def readBytes (fp : CStr) (len : Int) : Nat → Nat → Option (Option (List UInt8))
  | 0, _ => some (some [])
  | count + 1, pos =>
      match readPair fp len pos with
      | none => none
      | some none => some none
      | some (some (byte, pos)) =>
          (readBytes fp len count pos).map fun rest => rest.map fun bytes => byte :: bytes

section

variable (sha256 : List UInt8 → Vector UInt8 32)

/-- The context is `none` for a null pointer, and holds the certificate of the peer, if there
is one. -/
def getPeerFingerprint (sslClient : Option (Option X509Crt)) : Option (Vector UInt8 32) :=
  match sslClient with
  | none => none
  | some none => none
  | some (some crt) => some (sha256 crt.raw)

/-- What is done with the bytes that were read. -/
def checkFingerprint (sslClient : Option (Option X509Crt)) (domainName : Option CStr) :
    Option (Option (List UInt8)) → Option Bool
  | none => none
  | some none => some false
  | some (some fingerprintLocal) =>
      match getPeerFingerprint sha256 sslClient with
      | none => some false
      | some fingerprintRemote =>
          if fingerprintLocal ≠ fingerprintRemote.toList then some false
          else
            match domainName with
            | some domainName => sslClient.join.map fun crt => verifySslDn crt domainName
            | none => some true

/-- `verify_ssl_fingerprint`: the text is read first, then the hash and the name are compared.
-/
def verifySslFingerprint (sslClient : Option (Option X509Crt)) (fp : CStr)
    (domainName : Option CStr) : Option Bool :=
  checkFingerprint sha256 sslClient domainName (readBytes fp (textLength fp) 32 0)

end

/-! ### What a text spells -/

/-- A hexadecimal digit and its value. -/
def HexDigit (c : Char) (value : Nat) : Prop :=
  (value < 10 ∧ c.toNat = '0'.toNat + value) ∨
    (10 ≤ value ∧ value < 16 ∧
      (c.toNat + 10 = 'a'.toNat + value ∨ c.toNat + 10 = 'A'.toNat + value))

/-- Two digits and the byte that they are. -/
def HexPair (a b : Char) (byte : UInt8) : Prop :=
  ∃ high low, HexDigit a high ∧ HexDigit b low ∧ byte.toNat = 16 * high + low

/-- A text of pairs, each behind any number of separators. -/
inductive Spells : CStr → List UInt8 → Prop where
  | nil : Spells [] []
  | pair (pad : CStr) (a b : Char) (byte : UInt8) (text : CStr) (bytes : List UInt8)
      (hpad : ∀ c ∈ pad, isSeparator c = true) (hpair : HexPair a b byte)
      (htext : Spells text bytes) : Spells (pad ++ a :: b :: text) (byte :: bytes)

/-- The text spells the digest, and only separators follow. -/
def Matches (text : CStr) (digest : List UInt8) : Prop :=
  ∃ front tail, text = front ++ tail ∧ Spells front digest ∧ ∀ c ∈ tail, isSeparator c = true

/-- What follows the digest is separators just if the digest lies within the length that is
kept. For a text of less than `2 ^ 31` characters the digest always does. -/
def Closed (text : CStr) (digest : List UInt8) : Prop :=
  ∀ front tail, text = front ++ tail → Spells front digest →
    ((∀ c ∈ tail, isSeparator c = true) ↔ (front.length : Int) ≤ textLength text)

/-! ### Digits -/

theorem parseHexNibble_iff (c : Char) (v : UInt8) :
    parseHexNibble c = some v ↔ HexDigit c v.toNat := by
  have hle : ∀ a b : Char, a ≤ b ↔ a.toNat ≤ b.toNat := fun _ _ => Iff.rfl
  have hval : ∀ n : Nat, n < 16 → (some (UInt8.ofNat n) = some v ↔ v.toNat = n) := by
    intro n hn
    rw [Option.some_inj, ← UInt8.toNat_inj,
      UInt8.toNat_ofNat_of_lt' (Nat.lt_trans hn (by decide))]
    exact eq_comm
  simp only [parseHexNibble, HexDigit, hle, Char.reduceToNat]
  -- One range of characters after the other, as the code tests them.
  by_cases hdec : 48 ≤ c.toNat ∧ c.toNat ≤ 57
  · rw [if_pos hdec, hval _ (by omega)]
    omega
  · rw [if_neg hdec]
    by_cases hlow : 97 ≤ c.toNat ∧ c.toNat ≤ 102
    · rw [if_pos hlow, hval _ (by omega)]
      omega
    · rw [if_neg hlow]
      by_cases hup : 65 ≤ c.toNat ∧ c.toNat ≤ 70
      · rw [if_pos hup, hval _ (by omega)]
        omega
      · rw [if_neg hup]
        refine iff_of_false (Option.some_ne_none v).symm ?_
        omega

theorem HexDigit.lt {c : Char} {value : Nat} (h : HexDigit c value) : value < 16 := by
  unfold HexDigit at h
  omega

/-- The digits of a pair make up its byte. -/
theorem hexPair_iff (a b : Char) (byte : UInt8) :
    HexPair a b byte ↔ ∃ high low, parseHexNibble a = some high ∧
      parseHexNibble b = some low ∧ byte = low ||| high <<< 4 := by
  -- Four bits each, so the two digits do not overlap.
  have hbyte : ∀ high low : UInt8, high.toNat < 16 → low.toNat < 16 →
      (low ||| high <<< 4).toNat = 16 * high.toNat + low.toNat := by
    intro high low hhigh hlow
    have hshift : (high <<< 4).toNat = high.toNat <<< 4 := by
      rw [UInt8.toNat_shiftLeft]
      exact Nat.mod_eq_of_lt (by simp [Nat.shiftLeft_eq]; omega)
    rw [UInt8.toNat_or, hshift, Nat.or_comm, ← Nat.shiftLeft_add_eq_or_of_lt hlow,
      Nat.shiftLeft_eq, Nat.mul_comm]
  constructor
  · rintro ⟨high, low, ha, hb, heq⟩
    have hhigh : (UInt8.ofNat high).toNat = high :=
      UInt8.toNat_ofNat_of_lt' (Nat.lt_trans ha.lt (by decide))
    have hlow : (UInt8.ofNat low).toNat = low :=
      UInt8.toNat_ofNat_of_lt' (Nat.lt_trans hb.lt (by decide))
    refine ⟨UInt8.ofNat high, UInt8.ofNat low, ?_, ?_, ?_⟩
    · rw [parseHexNibble_iff, hhigh]
      exact ha
    · rw [parseHexNibble_iff, hlow]
      exact hb
    · rw [← UInt8.toNat_inj, heq, hbyte _ _ (by rw [hhigh]; exact ha.lt)
        (by rw [hlow]; exact hb.lt), hhigh, hlow]
  · rintro ⟨high, low, ha, hb, rfl⟩
    rw [parseHexNibble_iff] at ha hb
    exact ⟨high.toNat, low.toNat, ha, hb, hbyte high low ha.lt hb.lt⟩

/-- A digit is no separator. -/
theorem not_isSeparator_of_digit {c : Char} {value : Nat} (h : HexDigit c value) :
    isSeparator c = false := by
  rw [isSeparator, Bool.or_eq_false_iff, beq_eq_false_iff_ne, beq_eq_false_iff_ne]
  constructor
  · -- A separator is in none of the ranges of digits.
    rintro rfl
    simp [HexDigit] at h
    omega
  · rintro rfl
    simp [HexDigit] at h
    omega

/-! ### Reading from the front -/

/-- The first pair of a text, and what is behind it. -/
def nextPair (text : CStr) : Option (UInt8 × CStr) :=
  match text.dropWhile isSeparator with
  | a :: b :: rest =>
      match parseHexNibble a, parseHexNibble b with
      | some high, some low => some (low ||| high <<< 4, rest)
      | _, _ => none
  | _ => none

/-- The first `count` pairs of a text. -/
def scan : Nat → CStr → Option (List UInt8)
  | 0, _ => some []
  | count + 1, text =>
      match nextPair text with
      | none => none
      | some (byte, rest) => (scan count rest).map fun bytes => byte :: bytes

theorem drop_takeWhile (text : CStr) :
    text.drop (text.takeWhile isSeparator).length = text.dropWhile isSeparator := by
  have h : (text.takeWhile isSeparator ++ text.dropWhile isSeparator).drop
      (text.takeWhile isSeparator).length = text.dropWhile isSeparator := List.drop_left
  rwa [List.takeWhile_append_dropWhile] at h

section

variable (fp : CStr) (len : Int) (hlen : len ≤ fp.length)

include hlen

/-- Below the length that is kept, a position holds the next character. -/
theorem drop_window (pos : Nat) (hpos : (pos : Int) < len) :
    ∃ c, fp[pos]? = some c ∧
      (fp.take len.toNat).drop pos = c :: (fp.take len.toNat).drop (pos + 1) := by
  have hin : pos < (fp.take len.toNat).length := by
    rw [List.length_take]
    omega
  refine ⟨(fp.take len.toNat)[pos], ?_, List.drop_eq_getElem_cons hin⟩
  rw [List.getElem_take]
  exact List.getElem?_eq_getElem _

theorem drop_window_nil (pos : Nat) (hpos : ¬ (pos : Int) < len) :
    (fp.take len.toNat).drop pos = [] := by
  apply List.drop_eq_nil_of_le
  rw [List.length_take]
  omega

/-- The loop over separators stops behind them, with turns to spare. -/
theorem skipSeparators_eq (fuel pos : Nat) (hpos : pos ≤ fp.length)
    (hfuel : fp.length < pos + fuel) :
    skipSeparators fp len fuel pos =
      some (pos + (((fp.take len.toNat).drop pos).takeWhile isSeparator).length) := by
  -- The fuel is more than the characters that are left.
  induction fuel generalizing pos with
  | zero => omega
  | succ fuel ih =>
      rw [skipSeparators]
      by_cases hin : (pos : Int) < len
      · rcases drop_window fp len hlen pos hin with ⟨c, hget, hdrop⟩
        rw [if_pos hin, hget, hdrop]
        simp only
        cases hsep : isSeparator c with
        | true =>
            rw [if_pos rfl, ih (pos + 1) (by omega) (by omega), List.takeWhile_cons_of_pos hsep,
              List.length_cons]
            congr 1
            omega
        | false =>
            rw [if_neg Bool.false_ne_true,
              List.takeWhile_cons_of_neg (by rw [hsep]; exact Bool.false_ne_true)]
            rfl
      · rw [if_neg hin, drop_window_nil fp len hlen pos hin]
        rfl

/-- A turn reads the next pair, within the text. -/
theorem readPair_cases (pos : Nat) (hpos : pos ≤ fp.length) :
    (readPair fp len pos = some none ∧ nextPair ((fp.take len.toNat).drop pos) = none) ∨
      ∃ byte next, next ≤ fp.length ∧ readPair fp len pos = some (some (byte, next)) ∧
        nextPair ((fp.take len.toNat).drop pos) = some (byte, (fp.take len.toNat).drop next) := by
  unfold readPair nextPair
  rw [skipSeparators_eq fp len hlen _ pos hpos (by omega), ← drop_takeWhile, List.drop_drop]
  -- The position behind the separators is all that matters of them.
  generalize pos + (((fp.take len.toNat).drop pos).takeWhile isSeparator).length = at'
  simp only
  by_cases hfirst : (at' : Int) < len
  · rcases drop_window fp len hlen at' hfirst with ⟨a, ha, hdrop⟩
    rw [hdrop, ha]
    by_cases hsecond : ((at' + 1 : Nat) : Int) < len
    · rcases drop_window fp len hlen (at' + 1) hsecond with ⟨b, hb, hdrop'⟩
      rw [hdrop', hb, if_neg (by omega)]
      simp only
      cases parseHexNibble a with
      | none => exact Or.inl ⟨rfl, rfl⟩
      | some high =>
          cases parseHexNibble b with
          | none => exact Or.inl ⟨rfl, rfl⟩
          | some low => exact Or.inr ⟨_, at' + 2, by omega, rfl, rfl⟩
    · -- one character is left
      rw [drop_window_nil fp len hlen (at' + 1) hsecond, if_pos (by omega)]
      exact Or.inl ⟨rfl, rfl⟩
  · rw [drop_window_nil fp len hlen at' hfirst, if_pos (by omega)]
    exact Or.inl ⟨rfl, rfl⟩

/-- The loop over positions reads the text from its front to the length that is kept. -/
theorem readBytes_eq (count pos : Nat) (hpos : pos ≤ fp.length) :
    readBytes fp len count pos = some (scan count ((fp.take len.toNat).drop pos)) := by
  induction count generalizing pos with
  | zero => rfl
  | succ count ih =>
      rw [readBytes, scan]
      rcases readPair_cases fp len hlen pos hpos with
        ⟨hread, hnext⟩ | ⟨byte, next, hle, hread, hnext⟩
      · rw [hread, hnext]
      · rw [hread, hnext]
        simp only
        rw [ih next hle]
        rfl

end

/-! ### Spelling -/

theorem dropWhile_pad (pad text : CStr) (hpad : ∀ c ∈ pad, isSeparator c = true) :
    (pad ++ text).dropWhile isSeparator = text.dropWhile isSeparator := by
  rw [List.dropWhile_append, List.dropWhile_eq_nil_iff.2 hpad]
  rfl

theorem nextPair_iff (text rest : CStr) (byte : UInt8) :
    nextPair text = some (byte, rest) ↔
      ∃ pad a b, text = pad ++ a :: b :: rest ∧ (∀ c ∈ pad, isSeparator c = true) ∧
        HexPair a b byte := by
  constructor
  · intro h
    unfold nextPair at h
    -- What is in front of the pair is separators.
    have hsplit := List.takeWhile_append_dropWhile (p := isSeparator) (l := text)
    have hpad : ∀ c ∈ text.takeWhile isSeparator, isSeparator c = true :=
      fun c hc => List.mem_takeWhile_imp hc
    match hdrop : text.dropWhile isSeparator with
    | [] | [_] => rw [hdrop] at h; exact nomatch h
    | a :: b :: tail =>
        rw [hdrop] at h hsplit
        simp only at h
        cases ha : parseHexNibble a with
        | none => rw [ha] at h; exact nomatch h
        | some high =>
            cases hb : parseHexNibble b with
            | none => rw [ha, hb] at h; exact nomatch h
            | some low =>
                rw [ha, hb] at h
                obtain ⟨rfl, rfl⟩ := Prod.mk.inj (Option.some.inj h)
                exact ⟨_, a, b, hsplit.symm, hpad,
                  (hexPair_iff a b _).2 ⟨high, low, ha, hb, rfl⟩⟩
  · rintro ⟨pad, a, b, rfl, hpad, hpair⟩
    rcases (hexPair_iff a b byte).1 hpair with ⟨high, low, ha, hb, rfl⟩
    -- The separators end at the first digit.
    have hdigit : ¬ isSeparator a = true := by
      rw [not_isSeparator_of_digit ((parseHexNibble_iff a high).1 ha)]
      exact Bool.false_ne_true
    rw [nextPair, dropWhile_pad _ _ hpad, List.dropWhile_cons_of_neg hdigit]
    simp only [ha, hb]

theorem nextPair_pair (pad : CStr) (a b : Char) (byte : UInt8) (front tail : CStr)
    (hpad : ∀ c ∈ pad, isSeparator c = true) (hpair : HexPair a b byte) :
    nextPair ((pad ++ a :: b :: front) ++ tail) = some (byte, front ++ tail) := by
  refine (nextPair_iff _ _ _).2 ⟨pad, a, b, ?_, hpad, hpair⟩
  rw [List.append_assoc]
  rfl

/-- What is read is what the front of the text spells. -/
theorem scan_iff (count : Nat) (text : CStr) (bytes : List UInt8) :
    scan count text = some bytes ↔
      bytes.length = count ∧ ∃ front tail, text = front ++ tail ∧ Spells front bytes := by
  induction count generalizing text bytes with
  | zero =>
      rw [scan, List.length_eq_zero_iff, Option.some_inj]
      constructor
      · -- No bytes are spelled by the empty front.
        rintro rfl
        exact ⟨rfl, [], text, rfl, Spells.nil⟩
      · exact fun h => h.1.symm
  | succ count ih =>
      rw [scan]
      constructor
      · intro h
        cases hnext : nextPair text with
        | none => rw [hnext] at h; exact nomatch h
        | some found =>
            rcases found with ⟨byte, rest⟩
            rw [hnext] at h
            rcases Option.map_eq_some_iff.1 h with ⟨tailBytes, hscan, rfl⟩
            -- The front that the rest spells gets this pair in front of it.
            rcases (nextPair_iff text rest byte).1 hnext with ⟨pad, a, b, rfl, hpad, hpair⟩
            rcases (ih rest tailBytes).1 hscan with ⟨hlength, front, tail, rfl, hspells⟩
            refine ⟨by rw [List.length_cons, hlength], pad ++ a :: b :: front, tail, ?_, ?_⟩
            · rw [List.append_assoc]
              rfl
            · exact Spells.pair pad a b byte front tailBytes hpad hpair hspells
      · rintro ⟨hlength, front, tail, rfl, hspells⟩
        cases hspells with
        | nil => exact nomatch hlength
        | pair pad a b byte front bytes hpad hpair hspells =>
            -- The pair is read off the front, and the rest by the induction.
            have hnext := nextPair_pair pad a b byte front tail hpad hpair
            have hscan : scan count (front ++ tail) = some bytes :=
              (ih _ _).2 ⟨Nat.succ.inj hlength, front, tail, rfl, hspells⟩
            rw [hnext]
            simp only
            rw [hscan]
            rfl

/-- Each byte takes up a part of the text. -/
theorem Spells.length_le {text : CStr} {bytes : List UInt8} (h : Spells text bytes) :
    bytes.length ≤ text.length := by
  induction h with
  | nil => exact Nat.le_refl 0
  | pair pad a b byte text bytes hpad hpair htext ih =>
      rw [List.length_append, List.length_cons, List.length_cons, List.length_cons]
      omega

/-- A spelling has separators and digits in it, and nothing else. -/
theorem Spells.separator_or_digit {text : CStr} {bytes : List UInt8} (h : Spells text bytes) :
    ∀ c ∈ text, isSeparator c = true ∨ ∃ value, HexDigit c value := by
  induction h with
  | nil => exact fun c hc => absurd hc List.not_mem_nil
  | pair pad a b byte text bytes hpad hpair htext ih =>
      rcases hpair with ⟨high, low, ha, hb, -⟩
      intro c hc
      rcases List.mem_append.1 hc with hc | hc
      · exact Or.inl (hpad c hc)
      · rcases List.mem_cons.1 hc with rfl | hc
        · exact Or.inr ⟨high, ha⟩
        · rcases List.mem_cons.1 hc with rfl | hc
          · exact Or.inr ⟨low, hb⟩
          · exact ih c hc

/-- A text has one front that spells given bytes. -/
theorem Spells.unique {front front' : CStr} {bytes : List UInt8} (h : Spells front bytes)
    (h' : Spells front' bytes) (tail tail' : CStr) (heq : front ++ tail = front' ++ tail') :
    front = front' := by
  induction h generalizing front' with
  -- Only the empty text spells no bytes.
  | nil =>
      cases h'
      rfl
  | pair pad a b byte text bytes hpad hpair htext ih =>
      cases h' with
      | pair pad' a' b' _ text' _ hpad' hpair' htext' =>
          have hfirst := nextPair_pair pad a b byte text tail hpad hpair
          have hsecond := nextPair_pair pad' a' b' byte text' tail' hpad' hpair'
          -- both begin with the same pair, so the rest is the same too
          rw [heq, hsecond] at hfirst
          have hrest : text ++ tail = text' ++ tail' :=
            (Prod.mk.inj (Option.some.inj hfirst)).2.symm
          obtain rfl := ih htext' hrest
          obtain rfl := List.append_cancel_left hrest
          exact List.append_cancel_right heq

/-- The front of a front. -/
theorem spells_take_iff (text : CStr) (bytes : List UInt8) (n : Nat) :
    (∃ front tail, text.take n = front ++ tail ∧ Spells front bytes) ↔
      ∃ front tail, text = front ++ tail ∧ Spells front bytes ∧ front.length ≤ n := by
  constructor
  · rintro ⟨front, tail, htake, hspells⟩
    refine ⟨front, tail ++ text.drop n, ?_, hspells, ?_⟩
    · rw [← List.append_assoc, ← htake, List.take_append_drop]
    · have hlen := congrArg List.length htake
      rw [List.length_take, List.length_append] at hlen
      omega
  · rintro ⟨front, tail, rfl, hspells, hle⟩
    -- The tail is cut where the text is.
    refine ⟨front, tail.take (n - front.length), ?_, hspells⟩
    rw [List.take_append, List.take_of_length_le hle]

/-- A narrowed length is no longer than the length. -/
theorem bmod_le (n : Nat) : Int.bmod n (2 ^ 32) ≤ n := by
  rw [Int.bmod_def]
  split <;> omega

theorem textLength_le (fp : CStr) : textLength fp ≤ fp.length := by
  unfold textLength
  exact bmod_le _

/-! ### What is accepted -/

section

variable (sha256 : List UInt8 → Vector UInt8 32) (crt : X509Crt) (text : CStr)

/-- Without a domain name, a text is accepted if it spells the digest within the length that
is kept. It is read there and nowhere else. -/
theorem verifySslFingerprint_eq :
    ∃ accepted, verifySslFingerprint sha256 (some (some crt)) text none = some accepted ∧
      (accepted = true ↔ ∃ front tail, text = front ++ tail ∧
        Spells front (sha256 crt.raw).toList ∧ (front.length : Int) ≤ textLength text) := by
  -- The loop is the scan of what the length leaves of the text.
  have hread := readBytes_eq text (textLength text) (textLength_le text) 32 0 (Nat.zero_le _)
  rw [List.drop_zero] at hread
  have hspelled : scan 32 (text.take (textLength text).toNat) = some (sha256 crt.raw).toList ↔
      ∃ front tail, text = front ++ tail ∧ Spells front (sha256 crt.raw).toList ∧
        (front.length : Int) ≤ textLength text := by
    rw [scan_iff, Vector.length_toList, eq_self_iff_true, true_and, spells_take_iff]
    refine exists_congr fun front => exists_congr fun tail => and_congr_right fun _ =>
      and_congr_right fun hspells => ?_
    -- a negative length leaves no room for a pair
    have hroom := hspells.length_le
    rw [Vector.length_toList] at hroom
    omega
  rw [← hspelled, verifySslFingerprint, hread]
  cases hscan : scan 32 (text.take (textLength text).toNat) with
  | none => exact ⟨false, rfl, iff_of_false Bool.false_ne_true fun h => nomatch h⟩
  | some bytes =>
      simp only [checkFingerprint, getPeerFingerprint, Option.some_inj]
      -- All 32 bytes are read, and compared with the digest.
      by_cases hsame : bytes = (sha256 crt.raw).toList
      · rw [if_neg (not_not_intro hsame)]
        exact ⟨true, rfl, iff_of_true rfl hsame⟩
      · rw [if_pos hsame]
        exact ⟨false, rfl, iff_of_false Bool.false_ne_true hsame⟩

/-- No read is outside the text, and the texts that spell the digest with separators behind it
are accepted and no others, exactly where the text is closed. -/
theorem fingerprint_accepts_iff :
    (∃ accepted, verifySslFingerprint sha256 (some (some crt)) text none = some accepted ∧
      (accepted = true ↔ Matches text (sha256 crt.raw).toList)) ↔
      Closed text (sha256 crt.raw).toList := by
  rcases verifySslFingerprint_eq sha256 crt text with ⟨accepted, hverify, haccepted⟩
  rw [hverify]
  constructor
  · rintro ⟨accepted', hsame, hiff⟩ front tail rfl hspells
    obtain rfl := Option.some.inj hsame
    rw [haccepted] at hiff
    constructor
    · intro hseps
      -- A front is the only one that spells the digest, so its length is that of the one that was
      -- read.
      rcases hiff.2 ⟨front, tail, rfl, hspells, hseps⟩ with ⟨front', tail', heq, hspells', hle⟩
      obtain rfl := hspells.unique hspells' tail tail' heq
      exact hle
    · intro hle
      rcases hiff.1 ⟨front, tail, rfl, hspells, hle⟩ with ⟨front', tail', heq, hspells', hseps⟩
      obtain rfl := hspells.unique hspells' tail tail' heq
      rw [List.append_cancel_left heq]
      exact hseps
  · intro hclosed
    refine ⟨accepted, rfl, haccepted.trans ?_⟩
    constructor
    · rintro ⟨front, tail, heq, hspells, hle⟩
      exact ⟨front, tail, heq, hspells, (hclosed front tail heq hspells).2 hle⟩
    · rintro ⟨front, tail, heq, hspells, hseps⟩
      exact ⟨front, tail, heq, hspells, (hclosed front tail heq hspells).1 hseps⟩

end

/-- The digest of an empty sequence. -/
def digestOfEmpty : Vector UInt8 32 :=
  ⟨#[0xe4, 0xf6, 0x0d, 0x0a, 0xa6, 0xd7, 0xf3, 0xd3, 0xb6, 0xa6, 0x49,
    0x4b, 0x1c, 0x86, 0x1b, 0x99, 0xf6, 0x49, 0xc6, 0xf9, 0xec, 0x51,
    0xab, 0xaf, 0x20, 0x1b, 0x20, 0xf2, 0x97, 0x32, 0x7c, 0x95], rfl⟩

/-- The digest, with a letter behind it that is no separator. -/
theorem trailing_text_accepted :
    let crt : X509Crt := { raw := [0x30, 0x00] }
    let text := "E4F60D0AA6D7F3D3B6A6494B1C861B99F649C6F9EC51ABAF201B20F297327C95!".toList
    ¬ ∃ accepted, verifySslFingerprint (fun _ => digestOfEmpty) (some (some crt)) text none =
        some accepted ∧ (accepted = true ↔ Matches text digestOfEmpty.toList) := by
  intro crt text
  rintro ⟨accepted, hverify, hiff⟩
  -- The code reads 64 digits and looks no further.
  have haccepted : verifySslFingerprint (fun _ => digestOfEmpty) (some (some crt)) text none =
      some true := by decide
  obtain rfl := Option.some.inj (haccepted.symm.trans hverify)
  rcases hiff.1 rfl with ⟨front, tail, htext, hspells, htail⟩
  -- In a text that matches, the letter would be a digit or a separator.
  have hmem : '!' ∈ front ++ tail := by
    rw [← htext]
    decide
  rcases List.mem_append.1 hmem with hfront | hback
  · rcases hspells.separator_or_digit '!' hfront with hsep | ⟨value, hdigit⟩
    · exact absurd hsep (by decide)
    · simp [HexDigit] at hdigit
      omega
  · exact absurd (htail '!' hback) (by decide)

end ArduinoBeken.Tls
