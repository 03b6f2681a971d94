import ArduinoBeken.Tools.PartitionTable
import Mathlib.Data.List.TakeWhile

/-!
# Two Parsers of Sizes

The builder and the packer of the SDK each read sizes with a parser of their own. Both know
the units K and M. Without a unit the builder reads an integer as it is written in a program,
with a prefix for its base, and the packer one in decimal; the packer knows more units, which
no text ends in that the builder takes for an integer. So what the builder accepts the packer
reads as the same, or not at all.

## Main definitions

* `unsign`, `signed`: The sign of an integer.
* `DecimalSize`: A size with a unit, or in decimal.

## Theorems

* `pyInt_eq`: An integer is a magnitude with a sign.
* `pyInt_ten_of_zero`: An integer that is read in both ways is the same.
* `pyInt_ten_none`: A decimal has no other characters.
* `parseFormatSize_of_parseSize`: When the packer reads a size as the builder does.
-/

namespace ArduinoBeken

namespace Tools

/-- A number without its sign. -/
def unsign : List Char → List Char
  | '-' :: cs => cs
  | '+' :: cs => cs
  | cs => cs

/-- A magnitude with the sign of a number. -/
def signed (cs : List Char) (n : Nat) : Int :=
  if cs.head? = some '-' then -(n : Int) else n

/-- The characters that `int` reads. -/
def intText (s : List Char) : List Char :=
  (stripBy isIntSpace s).map toAsciiDigit

/-- The size has a unit that both parsers know, or is in decimal. -/
def DecimalSize (sizeStr : List Char) : Prop :=
  endsWith (upper (strip sizeStr)) ['K'] = true ∨ endsWith (upper (strip sizeStr)) ['M'] = true ∨
    (pyInt 10 (upper (strip sizeStr))).isSome

instance (sizeStr : List Char) : Decidable (DecimalSize sizeStr) :=
  inferInstanceAs (Decidable (_ ∨ _ ∨ _))

/-! ### Signs -/

theorem pyInt_eq (base : Nat) (s : List Char) :
    pyInt base s = (scanMagnitude base (unsign (intText s))).map (signed (intText s)) := by
  have hintText : (stripBy isIntSpace s).map toAsciiDigit = intText s := rfl
  unfold pyInt
  rw [hintText]
  generalize intText s = cs
  split
  · next cs => cases hscan : scanMagnitude base cs <;> simp only [unsign, hscan] <;> rfl
  · next cs => cases hscan : scanMagnitude base cs <;> simp only [unsign, hscan] <;> rfl
  · -- Without a sign the text is the magnitude.
    rename_i hminus hplus
    have hsign : unsign cs = cs := by
      unfold unsign
      split
      · exact absurd rfl (hminus _)
      · exact absurd rfl (hplus _)
      · rfl
    have hhead : cs.head? ≠ some '-' := by
      intro hhead
      rcases List.head?_eq_some_iff.1 hhead with ⟨rest, hrest⟩
      exact hminus rest hrest
    rw [hsign]
    unfold signed
    simp only [hhead, if_false]
    cases scanMagnitude base cs <;> rfl

theorem mem_unsign (cs : List Char) (c : Char) (hc : c ∈ cs) (hminus : c ≠ '-')
    (hplus : c ≠ '+') : c ∈ unsign cs := by
  unfold unsign
  split
  · exact (List.mem_cons.1 hc).resolve_left hminus
  · exact (List.mem_cons.1 hc).resolve_left hplus
  · exact hc

theorem mem_of_mem_unsign (cs : List Char) (c : Char) (hc : c ∈ unsign cs) : c ∈ cs := by
  unfold unsign at hc
  split at hc
  · exact List.mem_cons_of_mem _ hc
  · exact List.mem_cons_of_mem _ hc
  · exact hc

/-! ### Digits -/

/-- What is scanned are digits of the base and underscores. -/
theorem digits_of_scan (base value : Nat) (grouped : Bool) (cs : List Char) (n : Nat)
    (h : scanDigits base value grouped cs = some n) :
    ∀ c ∈ cs, c = '_' ∨ ∃ d ∈ digitValue c, d < base := by
  -- induction on the characters, with what was scanned in front of them
  induction cs generalizing value grouped with
  | nil => exact fun c hc => absurd hc List.not_mem_nil
  | cons a cs ih =>
      intro c hc
      rw [scanDigits] at h
      by_cases ha : a = '_'
      · -- An underscore may stand between digits.
        rw [if_pos ha] at h
        by_cases hgrouped : grouped = true
        · rw [if_pos hgrouped] at h
          exact absurd h.symm (Option.some_ne_none n)
        · rw [if_neg hgrouped] at h
          rcases List.mem_cons.1 hc with rfl | hc
          · exact Or.inl ha
          · exact ih _ _ h c hc
      · -- Any other character is a digit of the base.
        rw [if_neg ha] at h
        cases hd : digitValue a with
        | none =>
            rw [hd] at h
            exact absurd h.symm (Option.some_ne_none n)
        | some d =>
            rw [hd] at h
            simp only at h
            by_cases hlt : d < base
            · rw [if_pos hlt] at h
              rcases List.mem_cons.1 hc with rfl | hc
              · exact Or.inr ⟨d, hd, hlt⟩
              · exact ih _ _ h c hc
            · rw [if_neg hlt] at h
              exact absurd h.symm (Option.some_ne_none n)

theorem prefixBase_ne_ten (c : Char) (b : Nat) (h : prefixBase c = some b) : 10 ≠ b := by
  unfold prefixBase at h
  split_ifs at h <;> cases h <;> omega

/-- In base ten there is no prefix. -/
theorem scanMagnitude_ten (cs : List Char) : scanMagnitude 10 cs = scanDigits 10 0 true cs := by
  -- a prefix of another base is no number in base ten
  unfold scanMagnitude
  split
  · rename_i c cs
    cases hb : prefixBase c with
    | none => rfl
    | some b =>
        have hne := prefixBase_ne_ten c b hb
        simp only
        rw [if_neg]
        rintro (h | h)
        · exact absurd h (by omega)
        · exact hne h
  · rfl

/-- A letter that stands for a base is no digit. -/
theorem prefix_not_digit (c : Char) (b : Nat) (h : prefixBase c = some b) :
    c ≠ '_' ∧ c ≠ '-' ∧ c ≠ '+' ∧ isSpace c = false ∧ ∀ d ∈ digitValue c, 10 ≤ d := by
  unfold prefixBase at h
  split_ifs at h with hx ho hb
  · rcases hx with rfl | rfl <;> decide
  · rcases ho with rfl | rfl <;> decide
  · rcases hb with rfl | rfl <;> decide

/-- An integer that is read with a prefix and in decimal is the same. -/
theorem scanMagnitude_agree (cs : List Char) (m n : Nat) (h : scanMagnitude 0 cs = some n)
    (h' : scanMagnitude 10 cs = some m) : n = m := by
  rw [scanMagnitude_ten] at h'
  unfold scanMagnitude at h
  split at h
  · rename_i c cs
    cases hb : prefixBase c with
    | some b =>
        -- the letter of the base is no decimal digit
        rcases digits_of_scan 10 0 true _ m h' c (by simp) with hc | ⟨d, hd, hlt⟩
        · exact absurd hc (prefix_not_digit c b hb).1
        · exact absurd hlt (Nat.not_lt.2 ((prefix_not_digit c b hb).2.2.2.2 d hd))
    | none =>
        simp only [hb, if_true, h'] at h
        cases m with
        | zero => exact (Option.some.inj h).symm
        | succ m => exact absurd h.symm (Option.some_ne_none n)
  · simp only [if_true] at h
    exact Option.some.inj (h.symm.trans h')

theorem pyInt_agree (s : List Char) (m n : Int) (h : pyInt 0 s = some n)
    (h' : pyInt 10 s = some m) : n = m := by
  rw [pyInt_eq] at h h'
  rcases Option.map_eq_some_iff.1 h with ⟨k, hk, rfl⟩
  rcases Option.map_eq_some_iff.1 h' with ⟨k', hk', rfl⟩
  rw [scanMagnitude_agree _ k' k hk hk']

/-! ### White space -/

/-- What is stripped off a text are spaces. -/
theorem stripBy_split (space : Char → Bool) (s : List Char) :
    ∃ a b, s = a ++ stripBy space s ++ b ∧ (∀ c ∈ a, space c = true) ∧
      ∀ c ∈ b, space c = true := by
  have hsplit : ∀ t : List Char, ∃ a, t = a ++ t.dropWhile space ∧
      ∀ c ∈ a, space c = true := by
    intro t
    exact ⟨t.takeWhile space, List.takeWhile_append_dropWhile.symm,
      fun c hc => List.mem_takeWhile_imp hc⟩
  rcases hsplit s with ⟨a, ha, hspace⟩
  -- white space is stripped at the front, then at the back
  rcases hsplit (s.dropWhile space).reverse with ⟨b, hb, hspace'⟩
  refine ⟨a, b.reverse, ?_, hspace, fun c hc => hspace' c (List.mem_reverse.1 hc)⟩
  have hrev : s.dropWhile space = stripBy space s ++ b.reverse := by
    have h := congrArg List.reverse hb
    rw [List.reverse_reverse, List.reverse_append] at h
    exact h
  rw [List.append_assoc, ← hrev]
  exact ha

theorem mem_stripBy (space : Char → Bool) (s : List Char) (c : Char) (hc : c ∈ s)
    (hspace : space c = false) : c ∈ stripBy space s := by
  rcases stripBy_split space s with ⟨a, b, hs, ha, hb⟩
  rw [hs, List.mem_append, List.mem_append] at hc
  rcases hc with (hc | hc) | hc
  · exact absurd (ha c hc) (by rw [hspace]; exact Bool.false_ne_true)
  · exact hc
  · exact absurd (hb c hc) (by rw [hspace]; exact Bool.false_ne_true)

/-- What is no space is left in the text that `int` reads. -/
theorem mem_intText (s : List Char) (c : Char) (hc : c ∈ s) (hspace : isSpace c = false) :
    toAsciiDigit c ∈ intText s :=
  List.mem_map_of_mem (mem_stripBy isIntSpace s c hc (by rw [isIntSpace, hspace, Bool.false_and]))

/-- White space is no digit of any script. -/
theorem toAsciiDigit_space (c : Char) (h : isSpace c = true) : toAsciiDigit c = c := by
  have hnone : ∀ base ∈ decimalZeros, ∀ k < 10, isSpace (Char.ofNat (base + k)) = false := by
    decide
  unfold toAsciiDigit
  split
  -- a digit of another script is never white space
  · rename_i base hfind
    have hmem := List.mem_of_find?_eq_some hfind
    have hrange := List.find?_some hfind
    simp only [Bool.and_eq_true, decide_eq_true_eq] at hrange
    have hspace := hnone base hmem (c.toNat - base) (by omega)
    rw [Nat.add_sub_cancel' hrange.1, Char.ofNat_toNat, h] at hspace
    exact absurd hspace.symm Bool.false_ne_true
  · rfl

/-- A decimal has no character besides digits, underscores, signs and white space. -/
theorem pyInt_ten_none (s : List Char) (c : Char) (hc : c ∈ s) (hspace : isSpace c = false)
    (hminus : toAsciiDigit c ≠ '-') (hplus : toAsciiDigit c ≠ '+') (hline : toAsciiDigit c ≠ '_')
    (hdigit : ∀ d ∈ digitValue (toAsciiDigit c), 10 ≤ d) : pyInt 10 s = none := by
  have hmem : toAsciiDigit c ∈ unsign (intText s) :=
    mem_unsign _ _ (mem_intText s c hc hspace) hminus hplus
  rw [pyInt_eq, scanMagnitude_ten]
  cases hscan : scanDigits 10 0 true (unsign (intText s)) with
  | none => rfl
  | some n =>
      rcases digits_of_scan _ _ _ _ _ hscan _ hmem with h | ⟨d, hd, hlt⟩
      · exact absurd h hline
      · exact absurd hlt (Nat.not_lt.2 (hdigit d hd))

/-! ### Units -/

/-- What is scanned without a base are digits of some base, underscores, and a letter for the
    base. -/
theorem chars_of_scan (cs : List Char) (n : Nat) (h : scanMagnitude 0 cs = some n) :
    ∀ c ∈ cs, c = '_' ∨ (prefixBase c).isSome ∨ ∃ d ∈ digitValue c, d < 16 := by
  -- What is read in decimal has decimal digits only.
  have hten : ∀ m, scanDigits 10 0 true cs = some m →
      ∀ c ∈ cs, c = '_' ∨ (prefixBase c).isSome ∨ ∃ d ∈ digitValue c, d < 16 := by
    intro m hm c hc
    rcases digits_of_scan _ _ _ _ _ hm c hc with hline | ⟨d, hd, hlt⟩
    · exact Or.inl hline
    · exact Or.inr (Or.inr ⟨d, hd, by omega⟩)
  unfold scanMagnitude at h
  split at h
  · rename_i a cs
    cases hb : prefixBase a with
    | some b =>
        simp only [hb, true_or, if_true] at h
        -- Behind a letter stand digits of its base, which is sixteen at most.
        have hbase : b ≤ 16 := by
          unfold prefixBase at hb
          split_ifs at hb <;> cases hb <;> omega
        have hafter : ∀ c ∈ cs, c = '_' ∨ c ∈ afterPrefix cs := by
          intro c hc
          unfold afterPrefix
          split
          · exact List.mem_cons.1 hc
          · exact Or.inr hc
        intro c hc
        rcases List.mem_cons.1 hc with rfl | hc
        · exact Or.inr (Or.inr ⟨0, rfl, by omega⟩)
        · rcases List.mem_cons.1 hc with rfl | hc
          · exact Or.inr (Or.inl (Option.isSome_iff_exists.2 ⟨b, hb⟩))
          · rcases hafter c hc with hline | hc
            · exact Or.inl hline
            · rcases digits_of_scan _ _ _ _ _ h c hc with hline | ⟨d, hd, hlt⟩
              · exact Or.inl hline
              · exact Or.inr (Or.inr ⟨d, hd, by omega⟩)
    | none =>
        simp only [hb, if_true] at h
        cases hscan : scanDigits 10 0 true ('0' :: a :: cs) with
        | none =>
            rw [hscan] at h
            exact absurd h.symm (Option.some_ne_none n)
        | some m => exact hten m hscan
  · simp only [if_true] at h
    exact hten n h

/-- A letter that is no digit of any base and no sign. -/
def Unit (c : Char) : Prop :=
  isSpace c = false ∧ toAsciiDigit c = c ∧ c ≠ '-' ∧ c ≠ '+' ∧ c ≠ '_' ∧ prefixBase c = none ∧
    ∀ d ∈ digitValue c, 16 ≤ d

instance (c : Char) : Decidable (Unit c) :=
  inferInstanceAs (Decidable (_ ∧ _ ∧ _ ∧ _ ∧ _ ∧ _ ∧ _))

/-- A unit of its own is in no integer. -/
theorem pyInt_zero_unit (s : List Char) (c : Char) (hc : c ∈ s) (hunit : Unit c) :
    pyInt 0 s = none := by
  rcases hunit with ⟨hspace, hascii, hminus, hplus, hline, hletter, hdigit⟩
  have hmem : c ∈ unsign (intText s) := by
    have h := mem_intText s c hc hspace
    rw [hascii] at h
    exact mem_unsign _ _ h hminus hplus
  rw [pyInt_eq]
  cases hscan : scanMagnitude 0 (unsign (intText s)) with
  | none => rfl
  -- a number has only digits, underscores and a base's letter
  | some n =>
      rcases chars_of_scan _ _ hscan c hmem with h | h | ⟨d, hd, hlt⟩
      · exact absurd h hline
      · rw [hletter] at h
        exact absurd h Bool.false_ne_true
      · exact absurd hlt (Nat.not_lt.2 (hdigit d hd))

theorem unsign_concat (cs : List Char) : unsign (cs ++ ['B']) = unsign cs ++ ['B'] := by
  cases cs with
  | nil => rfl
  | cons c cs =>
      by_cases hminus : c = '-'
      · subst hminus
        rfl
      · by_cases hplus : c = '+'
        · subst hplus
          rfl
        · rw [List.cons_append, unsign, unsign]
          · rfl
          · exact fun _ h => hminus (List.cons.inj h).1
          · exact fun _ h => hplus (List.cons.inj h).1
          · exact fun _ h => hminus (List.cons.inj h).1
          · exact fun _ h => hplus (List.cons.inj h).1

/-- An integer that ends in `B` has a letter for its base before that. -/
theorem prefix_before_B (y : List Char) (k : Nat) (h : scanMagnitude 0 (y ++ ['B']) = some k) :
    ∃ c ∈ y, (prefixBase c).isSome := by
  have hten : ∀ m, scanDigits 10 0 true (y ++ ['B']) ≠ some m := by
    intro m hm
    rcases digits_of_scan _ _ _ _ _ hm 'B' (by simp) with hline | ⟨d, hd, hlt⟩
    · exact absurd hline (by decide)
    · cases hd
      exact absurd hlt (by decide)
  unfold scanMagnitude at h
  split at h
  · rename_i c cs heq
    cases hb : prefixBase c with
    | some b =>
        simp only [hb, true_or, if_true] at h
        -- There is a digit behind the letter, so the letter is not the last character.
        rcases List.eq_nil_or_concat cs with rfl | ⟨cs', l, rfl⟩
        · exact absurd h.symm (Option.some_ne_none k)
        · rw [List.concat_eq_append] at heq
          have hcons : y ++ ['B'] = ('0' :: c :: cs') ++ [l] := heq
          have hy := (List.append_inj' hcons rfl).1
          exact ⟨c, by rw [hy]; simp, Option.isSome_iff_exists.2 ⟨b, hb⟩⟩
    | none =>
        simp only [hb, if_true] at h
        cases hscan : scanDigits 10 0 true (y ++ ['B']) with
        | none =>
            rw [hscan] at h
            exact absurd h.symm (Option.some_ne_none k)
        | some m => exact absurd hscan (hten m)
  · simp only [if_true] at h
    exact absurd h (hten k)

/-- What ends in `B` and is an integer has a base, so it is no decimal without the `B`. -/
theorem pyInt_ten_before_B (w : List Char) (n : Int) (h : pyInt 0 (w ++ ['B']) = some n) :
    pyInt 10 w = none := by
  -- The text ends in `B` when the white space in front of it is stripped.
  rcases stripBy_split isIntSpace (w ++ ['B']) with ⟨a, b, hs, -, hb⟩
  have hbnil : b = [] := by
    rcases List.eq_nil_or_concat b with hnil | ⟨b', c, rfl⟩
    · exact hnil
    · rw [List.concat_eq_append, ← List.append_assoc] at hs
      have hlast := (List.append_inj' hs rfl).2
      have hspace := hb c (by simp)
      rw [← (List.cons.inj hlast).1] at hspace
      exact absurd hspace (by decide)
  rw [hbnil, List.append_nil] at hs
  rcases List.eq_nil_or_concat (stripBy isIntSpace (w ++ ['B'])) with hnil | ⟨u, c, hu⟩
  · have hB := mem_stripBy isIntSpace (w ++ ['B']) 'B' (by simp) (by decide)
    rw [hnil] at hB
    exact absurd hB List.not_mem_nil
  rw [List.concat_eq_append] at hu
  rw [hu, ← List.append_assoc] at hs
  rcases List.append_inj' hs rfl with ⟨hw, hc⟩
  have htext : intText (w ++ ['B']) = u.map toAsciiDigit ++ ['B'] := by
    rw [intText, hu, ← hc, List.map_append]
    rfl
  rw [pyInt_eq, htext] at h
  rcases Option.map_eq_some_iff.1 h with ⟨k, hk, -⟩
  rw [unsign_concat] at hk
  -- with the `B` in it the text is a number only in another base, whose prefix then stands in front
  rcases prefix_before_B _ k hk with ⟨c', hc', hletter⟩
  rcases List.mem_map.1 (mem_of_mem_unsign _ _ hc') with ⟨x, hx, rfl⟩
  rcases Option.isSome_iff_exists.1 hletter with ⟨base, hbase⟩
  rcases prefix_not_digit _ base hbase with ⟨hline, hminus, hplus, hspace, hdigit⟩
  have hxspace : isSpace x = false := by
    by_contra hx'
    rw [Bool.not_eq_false] at hx'
    rw [toAsciiDigit_space x hx', hx'] at hspace
    exact absurd hspace.symm Bool.false_ne_true
  exact pyInt_ten_none w x (hw ▸ List.mem_append_right a hx) hxspace hminus hplus hline hdigit

theorem endsWith_split (v u : List Char) (h : endsWith v u = true) : ∃ w, v = w ++ u := by
  rcases List.isSuffixOf_iff_suffix.1 h with ⟨w, hw⟩
  exact ⟨w, hw.symm⟩

theorem take_before (w : List Char) (c : Char) :
    (w ++ [c]).take ((w ++ [c]).length - 1) = w := by
  rw [List.length_append, List.length_singleton, Nat.add_sub_cancel, List.take_left]

/-- What the builder accepts as a size the packer reads as the same, or not at all. -/
theorem parseFormatSize_of_parseSize (sizeStr : List Char) (n : Int)
    (h : parseSize sizeStr = some n) :
    (DecimalSize sizeStr → parseFormatSize sizeStr = .ok n) ∧
      (¬DecimalSize sizeStr → parseFormatSize sizeStr = .error .valueError) := by
  unfold parseSize at h
  unfold parseFormatSize DecimalSize
  simp only at h ⊢
  generalize upper (strip sizeStr) = v at h
  -- one case for each unit, in the order in which the tool looks for them
  by_cases hK : endsWith v ['K'] = true
  · rcases endsWith_split v _ hK with ⟨w, rfl⟩
    simp only [hK, if_true, true_or] at h ⊢
    rw [List.dropLast_concat] at h
    rw [take_before w 'K', h]
    exact ⟨fun _ => rfl, fun hnot => absurd trivial hnot⟩
  by_cases hM : endsWith v ['M'] = true
  · rcases endsWith_split v _ hM with ⟨w, rfl⟩
    simp only [hK, hM, if_true, Bool.false_eq_true, if_false, true_or, or_true] at h ⊢
    rw [List.dropLast_concat] at h
    rw [take_before w 'M', h]
    exact ⟨fun _ => rfl, fun hnot => absurd trivial hnot⟩
  simp only [hK, hM, Bool.false_eq_true, if_false, false_or] at h ⊢
  -- The units that only the packer knows are no end of an integer.
  have hunit : ∀ u c, c ∈ u → Unit c → ¬endsWith v u = true := by
    intro u c hc hunit hend
    rcases endsWith_split v u hend with ⟨w, rfl⟩
    rw [pyInt_zero_unit _ c (List.mem_append_right w hc) hunit] at h
    exact absurd h.symm (Option.some_ne_none n)
  have hG := hunit ['G'] 'G' (by simp) (by decide)
  have hKB := hunit ['K', 'B'] 'K' (by simp) (by decide)
  have hMB := hunit ['M', 'B'] 'M' (by simp) (by decide)
  have hGB := hunit ['G', 'B'] 'G' (by simp) (by decide)
  simp only [hG, hKB, hMB, hGB, Bool.false_eq_true, if_false]
  by_cases hB : endsWith v ['B'] = true
  · rcases endsWith_split v _ hB with ⟨w, rfl⟩
    have hten : pyInt 10 (w ++ ['B']) = none :=
      pyInt_ten_none _ 'B' (by simp) (by decide) (by decide) (by decide) (by decide) (by decide)
    rw [if_pos hB, take_before w 'B', pyInt_ten_before_B w n h, hten]
    exact ⟨fun hsome => absurd hsome Bool.false_ne_true, fun _ => rfl⟩
  · rw [if_neg hB]
    cases hten : pyInt 10 v with
    | none => exact ⟨fun hsome => absurd hsome Bool.false_ne_true, fun _ => rfl⟩
    | some m =>
        rw [pyInt_agree v m n h hten]
        exact ⟨fun _ => rfl, fun hnot => absurd rfl hnot⟩

end Tools

end ArduinoBeken
