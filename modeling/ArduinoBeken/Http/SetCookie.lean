import ArduinoBeken.Http.Cookies

/-!
# The Text of a Set-Cookie Header

What a `Set-Cookie` header says, read the way its grammar is written: a pair
of name and value, then attributes between semicolons, each a name and perhaps
a text behind an equals sign. The last attribute of a name counts.

The client finds an attribute by the first place of its name in the header.
`Silent` and `Writes` say when such a search reads what the attribute says:
the name occurs nowhere, or once, at the head of one field behind the pair.

## Main definitions

* `fields`: The parts of a header between its semicolons.
* `pairName`, `pairValue`: The pair.
* `attributeTexts`: The texts of the attributes of one name.
* `maxAgeOf`, `expiresOf`, `domainOf`: What the attributes say.
* `Silent`, `Writes`: A header without an attribute, and with one.

## Theorems

* `attributeTexts_of_silent`, `attributeTexts_of_writes`: What such a header
  says.
* `attributeValue_of_silent`, `attributeValue_of_writes`: What the search finds
  in it.
* `toInt_of_wholeNumber`: A number in plain digits is read back.
-/

namespace ArduinoBeken

namespace Http

/-- The parts of a line between semicolons. -/
def fields (header : Text) : List Text :=
  header.splitOn ';'

/-- A part up to its first equals sign. -/
def beforeEquals (field : Text) : Text :=
  field.takeWhile (· ≠ '=')

/-- A part behind its first equals sign. -/
def afterEquals (field : Text) : Text :=
  (field.dropWhile (· ≠ '=')).drop 1

/-- The field of the pair. -/
def pairField (header : Text) : Text :=
  (fields header).headD []

/-- The name of the cookie. -/
def pairName (header : Text) : Text :=
  trim (beforeEquals (pairField header))

/-- Its value. -/
def pairValue (header : Text) : Text :=
  trim (afterEquals (pairField header))

/-- The name of an attribute, in lower case. -/
def attributeName (field : Text) : Text :=
  toLowerCase (trim (beforeEquals field))

/-- The text of an attribute. -/
def attributeText (field : Text) : Text :=
  trim (afterEquals field)

/-- The texts of the attributes of one name, in their order. -/
def attributeTexts (name header : Text) : List Text :=
  ((fields header).tail.filter (attributeName · = name)).map attributeText

/-- A digit of base 10. -/
def isDigit (c : Char) : Bool :=
  decide ('0' ≤ c ∧ c ≤ '9')

/-- The number that digits write, after a minus sign or none. -/
def wholeNumber : Text → Option Int
  | '-' :: s => if s ≠ [] ∧ s.all isDigit then some (-(scanDigits 10 0 s)) else none
  | s => if s ≠ [] ∧ s.all isDigit then some (scanDigits 10 0 s) else none

/-- The age of the cookie, from the last `Max-Age` that is a number. -/
def maxAgeOf (header : Text) : Option Int :=
  ((attributeTexts "max-age".toList header).filterMap wholeNumber).getLast?

/-- The date of the last `Expires` that is one. -/
def expiresOf (lib : TimeLibrary) (header : Text) : Option Int :=
  ((attributeTexts "expires".toList header).filterMap
    fun v => lib.strptime (toLowerCase v)).getLast?

/-- The last `Domain` that is not empty. -/
def domainOf (header : Text) : Option Text :=
  (((attributeTexts "domain".toList header).filter (· ≠ [])).map
    fun v => withoutLeadingDot (toLowerCase v)).getLast?

/-! ### Headers a search reads -/

/-- A name of an attribute, as the searches spell it. -/
def IsToken (name : Text) : Prop :=
  name ≠ [] ∧ ∀ c ∈ name, isSpace c = false ∧ c ≠ ';' ∧ c ≠ '='

instance (name : Text) : Decidable (IsToken name) :=
  @instDecidableAnd _ _ _ (List.decidableBAll _ name)

/-- What a search for the attribute looks for. -/
def mark (name : Text) : Text :=
  name ++ ['=']

/-- A field that neither holds the mark nor is the attribute. -/
def Quiet (name field : Text) : Prop :=
  ¬ mark name <:+: toLowerCase field ∧ attributeName field ≠ name

instance (name field : Text) : Decidable (Quiet name field) :=
  inferInstanceAs (Decidable (_ ∧ _))

/-- The header does not write the attribute, nor its mark anywhere. -/
def Silent (name header : Text) : Prop :=
  ∀ field ∈ fields header, Quiet name field

instance (name header : Text) : Decidable (Silent name header) :=
  inferInstanceAs (Decidable (∀ _ ∈ _, _))

/-- The header writes the attribute once, behind the pair and at the head of
its field, with a text that is not empty and has no blanks around it. -/
def Writes (name header value : Text) : Prop :=
  ∃ before pad key after, fields header = before ++ (pad ++ (key ++ '=' :: value)) :: after ∧
    before ≠ [] ∧ (∀ c ∈ pad, isSpace c = true) ∧ toLowerCase key = name ∧
    value ≠ [] ∧ trim value = value ∧ ∀ field ∈ before ++ after, Quiet name field

/-! ### Lower case -/

theorem toLower_eq_self (c : Char) (h : ¬ ('A' ≤ c ∧ c ≤ 'Z')) : toLower c = c := by
  rw [toLower, if_neg h]

/-- The letters a lowered character may be are lower-case ones. -/
theorem toLower_cases (c : Char) :
    toLower c = c ∨ (65 ≤ c.toNat ∧ c.toNat ≤ 90 ∧ (toLower c).toNat = c.toNat + 32) := by
  by_cases h : 'A' ≤ c ∧ c ≤ 'Z'
  · right
    have hlo : 65 ≤ c.toNat := h.1
    have hhi : c.toNat ≤ 90 := h.2
    refine ⟨hlo, hhi, ?_⟩
    have hvalid : (c.toNat + 32).isValidChar := Or.inl (by omega)
    rw [toLower, if_pos h, Char.ofNat, dif_pos hvalid]
    rfl
  · exact Or.inl (toLower_eq_self c h)

theorem isSpace_toLower (c : Char) : isSpace (toLower c) = isSpace c := by
  rcases toLower_cases c with h | ⟨hlo, hhi, h⟩
  · rw [h]
  · have hne : ∀ d : Char, 65 ≤ d.toNat → isSpace d = false := by
      intro d hd
      have hsp : d ≠ ' ' := by
        intro he
        rw [he] at hd
        exact absurd hd (by decide)
      simp only [isSpace, beq_eq_false_iff_ne.2 hsp, Bool.false_or, Bool.and_eq_false_iff,
        decide_eq_false_iff_not]
      omega
    rw [hne c hlo, hne (toLower c) (by omega)]

theorem toLower_eq_of_space (c : Char) (h : isSpace c = true) : toLower c = c := by
  rcases toLower_cases c with hc | ⟨hlo, hhi, -⟩
  · exact hc
  · exfalso
    have hsp : c ≠ ' ' := by
      intro he
      rw [he] at hlo
      exact absurd hlo (by decide)
    simp only [isSpace, beq_eq_false_iff_ne.2 hsp, Bool.false_or, Bool.and_eq_true,
      decide_eq_true_eq] at h
    omega

/-- A character below the letters is only the lower case of itself. -/
theorem toLower_eq_iff_of_small (c d : Char) (hd : d.toNat < 65) : toLower c = d ↔ c = d := by
  rcases toLower_cases c with h | ⟨hlo, hhi, h⟩
  · rw [h]
  · refine ⟨?_, ?_⟩
    · intro he
      rw [he] at h
      omega
    · intro he
      rw [he] at hlo
      omega

theorem toLowerCase_append (s t : Text) : toLowerCase (s ++ t) = toLowerCase s ++ toLowerCase t :=
  List.map_append

theorem toLowerCase_of_space (pad : Text) (h : ∀ c ∈ pad, isSpace c = true) :
    toLowerCase pad = pad := by
  induction pad with
  | nil => rfl
  | cons c pad ih =>
      rw [toLowerCase, List.map_cons, toLower_eq_of_space c (h c List.mem_cons_self)]
      exact congrArg (c :: ·) (ih (fun d hd => h d (List.mem_cons_of_mem c hd)))

theorem semicolon_not_mem_toLowerCase (s : Text) (h : ';' ∉ s) : ';' ∉ toLowerCase s := by
  intro hm
  rcases List.mem_map.1 hm with ⟨c, hc, heq⟩
  exact h ((toLower_eq_iff_of_small c ';' (by decide)).1 heq ▸ hc)

theorem toLowerCase_intercalate (fs : List Text) :
    toLowerCase ([';'].intercalate fs) = [';'].intercalate (fs.map toLowerCase) := by
  induction fs with
  | nil => rfl
  | cons f fs ih =>
      cases fs with
      | nil => simp only [List.intercalate_singleton, List.map_cons, List.map_nil]
      | cons g fs =>
          rw [List.intercalate_cons_cons, List.map_cons, List.map_cons,
            List.intercalate_cons_cons, toLowerCase_append, toLowerCase_append, ih, List.map_cons]
          rfl

/-- A header in lower case is its fields in lower case. -/
theorem toLowerCase_eq_fields (header : Text) :
    toLowerCase header = [';'].intercalate ((fields header).map toLowerCase) := by
  rw [← toLowerCase_intercalate, fields, List.intercalate_splitOn]

/-! ### What such a header says -/

theorem beforeEquals_append (s value : Text) (h : '=' ∉ s) :
    beforeEquals (s ++ '=' :: value) = s := by
  rw [beforeEquals, List.takeWhile_append_of_pos, List.takeWhile_cons_of_neg, List.append_nil]
  · decide
  · intro c hc
    rw [decide_eq_true_eq]
    exact fun he => h (he ▸ hc)

theorem afterEquals_append (s value : Text) (h : '=' ∉ s) :
    afterEquals (s ++ '=' :: value) = value := by
  rw [afterEquals, List.dropWhile_append_of_pos, List.dropWhile_cons_of_neg, List.drop_one,
    List.tail_cons]
  · decide
  · intro c hc
    rw [decide_eq_true_eq]
    exact fun he => h (he ▸ hc)

/-- The characters of a name are those of its lower-case spelling, up to case. -/
theorem key_plain (name key : Text) (hname : IsToken name) (hkey : toLowerCase key = name) :
    (∀ c ∈ key, isSpace c = false) ∧ '=' ∉ key := by
  have hmem : ∀ c ∈ key, toLower c ∈ name := fun c hc => hkey ▸ List.mem_map_of_mem hc
  refine ⟨?_, ?_⟩
  · intro c hc
    rw [← isSpace_toLower]
    exact (hname.2 _ (hmem c hc)).1
  · intro hc
    have := (hname.2 _ (hmem '=' hc)).2.2
    exact this (toLower_eq_self '=' (by decide))

theorem attributeTexts_of_silent (name header : Text) (h : Silent name header) :
    attributeTexts name header = [] := by
  rw [attributeTexts, List.map_eq_nil_iff, List.filter_eq_nil_iff]
  intro field hfield
  rw [decide_eq_true_eq]
  exact (h field (List.mem_of_mem_tail hfield)).2

theorem attributeTexts_of_writes (name header value : Text) (hname : IsToken name)
    (h : Writes name header value) : attributeTexts name header = [value] := by
  rcases h with ⟨before, pad, key, after, hfields, hbefore, hpad, hkey, hne, htrim, hquiet⟩
  have hplain := key_plain name key hname hkey
  -- the first `=` is the one behind the key
  have heq : '=' ∉ pad ++ key := by
    intro hm
    rcases List.mem_append.1 hm with hm | hm
    · exact absurd (hpad '=' hm) (by decide)
    · exact hplain.2 hm
  have hattr : attributeName (pad ++ (key ++ '=' :: value)) = name := by
    rw [attributeName, ← List.append_assoc, beforeEquals_append _ _ heq,
      trim_of_pad pad key hpad hplain.1, hkey]
  have htext : attributeText (pad ++ (key ++ '=' :: value)) = value := by
    rw [attributeText, ← List.append_assoc, afterEquals_append _ _ heq, htrim]
  -- no other attribute has the name
  have hnone : ∀ fs : List Text, (∀ f ∈ fs, Quiet name f) →
      fs.filter (attributeName · = name) = [] := by
    intro fs hfs
    rw [List.filter_eq_nil_iff]
    intro f hf
    rw [decide_eq_true_eq]
    exact (hfs f hf).2
  cases before with
  | nil => exact absurd rfl hbefore
  | cons pair before =>
      rw [attributeTexts, hfields, List.cons_append, List.tail_cons, List.filter_append,
        hnone before
          (fun f hf => hquiet f (List.mem_append_left after (List.mem_cons_of_mem pair hf))),
        List.filter_cons_of_pos (by rw [decide_eq_true_eq]; exact hattr),
        hnone after (fun f hf => hquiet f (List.mem_append_right (pair :: before) hf)),
        List.nil_append, List.map_cons, List.map_nil, htext]

/-! ### What the search finds -/

theorem mark_ne_nil (name : Text) : mark name ≠ [] :=
  List.append_ne_nil_of_right_ne_nil name (List.cons_ne_nil '=' [])

theorem semicolon_not_mem_mark (name : Text) (hname : IsToken name) : ';' ∉ mark name := by
  intro h
  rcases List.mem_append.1 h with h | h
  · exact (hname.2 ';' h).2.1 rfl
  · exact absurd (List.mem_singleton.1 h) (by decide)

theorem attributeValue_of_silent (name header : Text) (hname : IsToken name)
    (h : Silent name header) : attributeValue (toLowerCase header) (mark name) = none := by
  have hnone : Search.find (mark name) (toLowerCase header) = none := by
    rw [toLowerCase_eq_fields]
    refine Search.find_fields_eq_none (mark_ne_nil name) (semicolon_not_mem_mark name hname) _ ?_
    intro f hf
    rcases List.mem_map.1 hf with ⟨field, hfield, rfl⟩
    exact (h field hfield).1
  have hindex := (indexOf_eq_neg_one_iff (toLowerCase header) (mark name) (mark_ne_nil name)).2
    ((Search.find_eq_none_iff _ _).1 hnone)
  rw [attributeValue, hindex, if_neg (by omega)]

/-- A value between its mark and the next semicolon is what a search for the
mark reads. -/
theorem attributeValue_of_find (u m value w : Text) (hvalue : value ≠ []) (hsemi : ';' ∉ value)
    (hw : w = [] ∨ ∃ t, w = ';' :: t)
    (hfind : Search.find m (u ++ m ++ (value ++ w)) = some u.length) :
    attributeValue (u ++ m ++ (value ++ w)) m = some value := by
  have hrest : value ++ w ≠ [] := List.append_ne_nil_of_left_ne_nil hvalue w
  have hpos1 : indexOf (u ++ m ++ (value ++ w)) m 0 = (u.length : Int) := by
    rw [indexOf_zero _ _ (List.append_ne_nil_of_right_ne_nil (u ++ m) hrest), hfind]
  have hum : ((u.length : Int) + (m.length : Int)) = ((u ++ m).length : Int) := by
    rw [List.length_append]
    rfl
  rw [attributeValue, hpos1, if_pos (by omega)]
  simp only [hum, indexOfChar]
  rw [indexOf_append (u ++ m) (value ++ w) [';'] hrest]
  rcases hw with rfl | ⟨t, rfl⟩
  · -- No semicolon follows: the rest of the header is the value.
    rw [List.append_nil, Search.find_singleton_eq_none ';' value hsemi]
    simp only []
    rw [if_neg (by omega), substring_from]
  · have hlen : 0 < value.length := List.length_pos_iff.2 hvalue
    rw [Search.find_singleton ';' value t hsemi]
    simp only []
    rw [if_pos (by omega), substring_between]

theorem attributeValue_of_writes (name header value : Text) (hname : IsToken name)
    (h : Writes name header value) :
    attributeValue (toLowerCase header) (mark name) = some (toLowerCase value) := by
  rcases h with ⟨before, pad, key, after, hfields, hbefore, hpad, hkey, hne, htrim, hquiet⟩
  have hfield : toLowerCase (pad ++ (key ++ '=' :: value)) =
      pad ++ (mark name ++ toLowerCase value) := by
    -- the name is found whatever its case, the value lower-cased with it
    rw [toLowerCase_append, toLowerCase_append, toLowerCase_of_space pad hpad, hkey, mark,
      List.append_assoc]
    rfl
  -- the field ends at the next semicolon, which the value does not have
  have hsemi : ';' ∉ value := by
    intro hm
    refine Search.sep_not_mem_splitOn ';' header (pad ++ (key ++ '=' :: value)) ?_ ?_
    · rw [← fields, hfields]
      exact List.mem_append_right before List.mem_cons_self
    · exact List.mem_append_right pad (List.mem_append_right key (List.mem_cons_of_mem '=' hm))
  -- The mark is found at the head of the field.
  have hfind : Search.find (mark name) (toLowerCase (pad ++ (key ++ '=' :: value))) =
      some pad.length := by
    rw [hfield]
    rcases hname with ⟨hne', htok⟩
    cases name with
    | nil => exact absurd rfl hne'
    | cons n name =>
        refine Search.find_pad pad n (name ++ ['=']) (toLowerCase value) ?_
        intro hm
        have := (htok n List.mem_cons_self).1
        rw [hpad n hm] at this
        exact absurd this (by decide)
  have hlower : toLowerCase header =
      ((before.map toLowerCase).flatMap (· ++ [';']) ++ pad) ++ mark name ++
        (toLowerCase value ++ (after.map toLowerCase).flatMap (';' :: ·)) := by
    rw [toLowerCase_eq_fields, hfields, List.map_append, List.map_cons,
      Search.intercalate_middle, hfield]
    simp only [List.append_assoc]
  -- the fields before are quiet about the mark
  have hmark := Search.find_field (mark_ne_nil name) (semicolon_not_mem_mark name hname)
    (before.map toLowerCase) (toLowerCase (pad ++ (key ++ '=' :: value)))
    (after.map toLowerCase) (by
      intro f hf
      rcases List.mem_map.1 hf with ⟨field, hm, rfl⟩
      exact (hquiet field (List.mem_append_left after hm)).1) pad.length hfind
  rw [← List.map_cons, ← List.map_append, ← hfields, ← toLowerCase_eq_fields, hlower,
    ← List.length_append] at hmark
  rw [hlower]
  refine attributeValue_of_find _ _ _ _ ?_ (semicolon_not_mem_toLowerCase value hsemi) ?_ hmark
  · intro hnil
    exact hne (List.map_eq_nil_iff.1 hnil)
  · cases after with
    | nil => exact Or.inl rfl
    | cons f after => exact Or.inr ⟨_, rfl⟩

/-! ### Numbers -/

theorem isDigit_ne (c d : Char) (hc : isDigit c = true) (hd : isDigit d = false) : c ≠ d := by
  intro h
  rw [h, hd] at hc
  exact absurd hc Bool.false_ne_true

theorem isSpace_of_isDigit (c : Char) (h : isDigit c = true) : isSpace c = false := by
  have hlo : 48 ≤ c.toNat := (of_decide_eq_true h).1
  simp only [isSpace, beq_eq_false_iff_ne.2 (isDigit_ne c ' ' h (by decide)), Bool.false_or,
    Bool.and_eq_false_iff, decide_eq_false_iff_not]
  omega

theorem toLower_of_isDigit (c : Char) (h : isDigit c = true) : toLower c = c := by
  refine toLower_eq_self c (fun hu => ?_)
  have hhi : c.toNat ≤ 57 := (of_decide_eq_true h).2
  have hlo : 65 ≤ c.toNat := hu.1
  omega

theorem toLowerCase_of_digits (s : Text) (h : s.all isDigit = true) : toLowerCase s = s := by
  rw [List.all_eq_true] at h
  induction s with
  | nil => rfl
  | cons c s ih =>
      rw [toLowerCase, List.map_cons, toLower_of_isDigit c (h c List.mem_cons_self)]
      exact congrArg (c :: ·) (ih (fun d hd => h d (List.mem_cons_of_mem c hd)))

theorem strtol_of_digits (s : Text) (hne : s ≠ []) (h : s.all isDigit = true) :
    strtol 10 s = clampLong (scanDigits 10 0 s) := by
  cases s with
  | nil => exact absurd rfl hne
  | cons c s =>
      have hc : isDigit c = true := List.all_eq_true.1 h c List.mem_cons_self
      have hminus : some c ≠ some '-' := by
        intro h
        exact isDigit_ne c '-' hc (by decide) (Option.some.inj h)
      have hplus : some c ≠ some '+' := by
        intro h
        exact isDigit_ne c '+' hc (by decide) (Option.some.inj h)
      rw [strtol, List.dropWhile_cons_of_neg (by
        rw [isSpace_of_isDigit c hc]; exact Bool.false_ne_true), signed, List.head?_cons,
        if_neg hminus, if_neg hplus]
      rfl

/-- A number in plain digits is read back. -/
theorem toInt_of_wholeNumber (v : Text) (n : Int) (h : wholeNumber v = some n) :
    toInt (toLowerCase v) = clampLong n := by
  unfold wholeNumber at h
  split at h
  -- a sign keeps its place in lower case, and so do the digits
  · rename_i s
    by_cases hs : s ≠ [] ∧ s.all isDigit = true
    · rw [if_pos hs, Option.some.injEq] at h
      subst h
      have hlower : toLowerCase ('-' :: s) = '-' :: s := by
        rw [toLowerCase, List.map_cons, toLower_eq_self '-' (by decide)]
        exact congrArg ('-' :: ·) (toLowerCase_of_digits s hs.2)
      rw [hlower, toInt, strtol, List.dropWhile_cons_of_neg (by decide)]
      rfl
    · rw [if_neg hs] at h
      exact absurd h (by simp only [reduceCtorEq, not_false_eq_true])
  · by_cases hs : v ≠ [] ∧ v.all isDigit = true
    · rw [if_pos hs, Option.some.injEq] at h
      subst h
      rw [toLowerCase_of_digits v hs.2]
      exact strtol_of_digits v hs.1 hs.2
    · rw [if_neg hs] at h
      exact absurd h (by simp only [reduceCtorEq, not_false_eq_true])

end Http

end ArduinoBeken
