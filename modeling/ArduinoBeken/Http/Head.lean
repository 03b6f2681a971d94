import ArduinoBeken.Http.Body
import ArduinoBeken.Http.SetCookie

/-!
# Heads as a Server Writes Them

A head is a status line and fields, each a name, a colon and a text whose
surrounding blanks do not count. `handleHeaderResponse` reads the status, the
last `Content-Length` and the last `Transfer-Encoding` of a head that comes
without a silence, however it arrives, and leaves the connection at what
follows the head.

## Main definitions

* `Field`, `Head`: A head.
* `Head.Plain`: The heads a server may write.
* `valuesOf`: The values of the fields of one name.
* `sizeOf`, `codingOf`: What the client makes of them.

## Theorems

* `trim_append_of_solid`: Trimming takes off behind the last solid character.
* `readField_of_field`, `readStatusLine_code`: One line.
* `size_applyFields`, `coding_applyFields`: The fields of a head.
* `handleHeaderResponse_eq`, `handleHeaderResponse_of_head`: A whole head.
-/

namespace ArduinoBeken

namespace Http

open Arrivals

/-- A field of a head, with its value as it stands behind the colon. -/
structure Field where
  name : Text
  raw : Text
deriving DecidableEq, Repr

/-- The line of a field, without its end. -/
def Field.line (f : Field) : Text :=
  f.name ++ ':' :: f.raw

/-- The value without the blanks around it. -/
def Field.value (f : Field) : Text :=
  trim f.raw

/-- The head of a response. -/
structure Head where
  version : Text
  code : Text
  reason : Text
  fields : List Field
deriving DecidableEq, Repr

namespace Head

/-- The first line, without its end. -/
def statusLine (h : Head) : Text :=
  h.version ++ ' ' :: (h.code ++ ' ' :: h.reason)

/-- All the lines, without their ends. -/
def lines (h : Head) : List Text :=
  h.statusLine :: h.fields.map Field.line

/-- The number of the code. -/
def status (h : Head) : Nat :=
  scanDigits 10 0 h.code

end Head

/-- A name has a character, no blanks and no colon; a field is one line. -/
def Field.Plain (f : Field) : Prop :=
  f.name ≠ [] ∧ (∀ c ∈ f.name, isSpace c = false ∧ c ≠ ':') ∧ '\n' ∉ f.raw

instance (f : Field) : Decidable f.Plain :=
  @instDecidableAnd _ _ _ (@instDecidableAnd _ _ (List.decidableBAll _ _) _)

/-- The parts have no character that would end them or begin another. -/
structure Head.Plain (h : Head) : Prop where
  version : h.version ≠ [] ∧ ∀ c ∈ h.version, isSpace c = false
  code : h.code ≠ [] ∧ h.code.all isDigit = true
  status : 0 < h.status
  reason : '\n' ∉ h.reason
  fields : ∀ f ∈ h.fields, f.Plain

theorem Head.plain_iff (h : Head) : h.Plain ↔
    (h.version ≠ [] ∧ h.version.all (fun c => !isSpace c) = true) ∧
      (h.code ≠ [] ∧ h.code.all isDigit = true) ∧ 0 < h.status ∧ '\n' ∉ h.reason ∧
        ∀ f ∈ h.fields, f.Plain := by
  have hsolid : h.version.all (fun c => !isSpace c) = true ↔
      ∀ c ∈ h.version, isSpace c = false := by
    simp only [List.all_eq_true, Bool.not_eq_true']
  rw [hsolid]
  exact ⟨fun hp => ⟨hp.version, hp.code, hp.status, hp.reason, hp.fields⟩,
    fun hp => ⟨hp.1, hp.2.1, hp.2.2.1, hp.2.2.2.1, hp.2.2.2.2⟩⟩

instance (h : Head) : Decidable h.Plain :=
  @decidable_of_iff _ _ h.plain_iff.symm
    (@instDecidableAnd _ _ _ (@instDecidableAnd _ _ _ (@instDecidableAnd _ _ _
      (@instDecidableAnd _ _ _ (List.decidableBAll _ _)))))

/-- The values of the fields of one name, in their order. -/
def valuesOf (name : Text) (fields : List Field) : List Text :=
  (fields.filter fun f => equalsIgnoreCase f.name name).map Field.value

/-- The size the client takes from the fields. -/
def sizeOf (fields : List Field) : Int :=
  match (valuesOf "Content-Length".toList fields).getLast? with
  | some value => toInt value
  | none => -1

/-- The transfer encoding the client takes from the fields. -/
def codingOf (fields : List Field) : Text :=
  (valuesOf "Transfer-Encoding".toList fields).getLast?.getD []

/-! ### One line -/

/-- Trimming takes off what is behind the last solid character. -/
theorem trim_append_of_solid (a b : Text) (x y : Char) (hhead : a.head? = some x)
    (hx : isSpace x = false) (hlast : a.getLast? = some y) (hy : isSpace y = false) :
    ∃ b' pad, b = b' ++ pad ∧ (∀ c ∈ pad, isSpace c = true) ∧ trim (a ++ b) = a ++ b' := by
  -- the first character is none that is trimmed
  have hdrop : (a ++ b).dropWhile isSpace = a ++ b := by
    cases a with
    | nil => exact absurd hhead (fun h => nomatch h)
    | cons c a =>
        rw [List.cons_append, List.dropWhile_cons_of_neg]
        rw [Option.some.inj hhead, hx]
        exact Bool.false_ne_true
  rcases exists_trim_append (a ++ b) with ⟨pad, hpad, hspace⟩
  rw [hdrop] at hpad
  rcases List.append_eq_append_iff.1 hpad with ⟨b', ht, hb⟩ | ⟨e, ha, hp⟩
  · exact ⟨b', pad, hb, hspace, ht⟩
  · -- The blanks would reach into the solid part.
    cases e using List.reverseRecOn with
    | nil =>
        rw [List.append_nil] at ha
        rw [List.nil_append] at hp
        exact ⟨[], pad, hp.symm, hspace, by rw [← ha, List.append_nil]⟩
    | append_singleton e z =>
        exfalso
        rw [ha, ← List.append_assoc, List.getLast?_concat] at hlast
        have hz := hspace z (by rw [hp]; simp only [List.mem_append, List.mem_singleton, or_true,
          true_or])
        rw [Option.some.inj hlast, hy] at hz
        exact absurd hz Bool.false_ne_true

theorem isSpace_of_mem_plain (f : Field) (h : f.Plain) : ∃ x, f.name.head? = some x ∧
    isSpace x = false := by
  cases hname : f.name with
  | nil => exact absurd hname h.1
  | cons x name =>
      refine ⟨x, rfl, (h.2.1 x ?_).1⟩
      rw [hname]
      exact List.mem_cons_self

/-- A line of a field is read as its name and its value. -/
theorem readField_of_field (lib : TimeLibrary) (moment : Moment) (host : Text) (st : HeadState)
    (f : Field) (h : f.Plain) :
    trim f.line ≠ [] ∧ readField lib moment host st (trim f.line) =
      applyField lib moment host st f.name f.value := by
  rcases isSpace_of_mem_plain f h with ⟨x, hhead, hx⟩
  have hsplit : f.line = (f.name ++ [':']) ++ f.raw := by
    rw [Field.line, List.append_assoc, List.singleton_append]
  have hhead' : (f.name ++ [':']).head? = some x := by
    cases hname : f.name with
    | nil => exact absurd hname h.1
    | cons c name =>
        rw [hname] at hhead
        exact hhead
  -- the name with its colon is solid at both ends, so only the value is trimmed
  rcases trim_append_of_solid (f.name ++ [':']) f.raw x ':' hhead' hx
    (List.getLast?_concat ..) (by decide) with ⟨raw', pad, hraw, hpad, htrim⟩
  have hcolon : ':' ∉ f.name := fun hm => (h.2.1 ':' hm).2 rfl
  have hline : trim f.line = f.name ++ ':' :: raw' := by
    rw [hsplit, htrim, List.append_assoc, List.singleton_append]
  have hne : f.name ++ ':' :: raw' ≠ [] :=
    List.append_ne_nil_of_right_ne_nil _ (List.cons_ne_nil _ _)
  rw [hline]
  refine ⟨hne, ?_⟩
  -- the first colon is the one behind the name
  have hindex : indexOfChar (f.name ++ ':' :: raw') ':' 0 = (f.name.length : Int) := by
    rw [indexOfChar, indexOf_zero _ _ hne, Search.find_singleton ':' f.name raw' hcolon]
  have hpos : (f.name.length : Int) ≠ 0 := by
    have := List.length_pos_iff.2 h.1
    omega
  have hvalue : trim (substringFrom (f.name ++ ':' :: raw') (f.name.length + 1)) = f.value := by
    have := substring_from (f.name ++ [':']) raw'
    rw [List.append_assoc, List.singleton_append, List.length_append, List.length_singleton] at this
    rw [Field.value, hraw, trim_append_space raw' pad hpad]
    exact congrArg trim this
  rw [readField]
  simp only [hindex]
  rw [if_neg hpos, substring_before, hvalue]

/-- Up to -1 is up to the end. -/
theorem substring_to_end (u v : Text) : substring (u ++ v) u.length (-1) = v := by
  have hend : clip (u ++ v) ((u ++ v).length : Int) = (u ++ v).length := by
    rw [clip_natCast]
    omega
  have hfrom := substring_from u v
  rw [substringFrom, substring, hend] at hfrom
  rw [substring, clip_neg_one]
  exact hfrom

/-- What trimming leaves of the status line: the version, the code, and what is
solid of the reason. -/
theorem trim_statusLine (h : Head) (hp : h.Plain) :
    ∃ tail, trim h.statusLine = h.version ++ ' ' :: (h.code ++ tail) ∧
      (tail = [] ∨ tail.head? = some ' ') := by
  have hsolid : ∀ c ∈ h.code, isSpace c = false :=
    fun c hc => isSpace_of_isDigit c (List.all_eq_true.1 hp.code.2 c hc)
  -- The line up to the end of the code is solid at both ends.
  have hsplit : h.statusLine = (h.version ++ ' ' :: h.code) ++ ' ' :: h.reason := by
    rw [Head.statusLine, List.append_assoc, List.cons_append]
  rcases hv : h.version with _ | ⟨x, version⟩
  · exact absurd hv hp.version.1
  have hx : isSpace x = false := hp.version.2 x (by rw [hv]; exact List.mem_cons_self)
  have hlast : ∃ y, (h.version ++ ' ' :: h.code).getLast? = some y ∧ isSpace y = false := by
    rcases List.eq_nil_or_concat h.code with hnil | ⟨code, y, hy⟩
    · exact absurd hnil hp.code.1
    · refine ⟨y, ?_, hsolid y ?_⟩
      · rw [hy, List.concat_eq_append, ← List.cons_append, ← List.append_assoc,
          List.getLast?_concat]
      · rw [hy, List.concat_eq_append]
        exact List.mem_append_right _ List.mem_cons_self
  rcases hlast with ⟨y, hlast, hy⟩
  rcases trim_append_of_solid (h.version ++ ' ' :: h.code) (' ' :: h.reason) x y
    (by rw [hv]; rfl) hx hlast hy with ⟨tail, pad, htail, hpad, htrim⟩
  refine ⟨tail, ?_, ?_⟩
  · rw [hsplit, htrim, List.append_assoc, List.cons_append, hv]
  · cases tail with
    | nil => exact Or.inl rfl
    | cons c tail =>
        rw [List.cons_append] at htail
        exact Or.inr (congrArg some (List.cons.inj htail).1.symm)

/-- The status line gives the number of its code. -/
theorem readStatusLine_code (st : HeadState) (h : Head) (hp : h.Plain) :
    trim h.statusLine ≠ [] ∧
      (readStatusLine st (trim h.statusLine)).answer.returnCode = clampLong h.status := by
  -- neither the version nor the code has a blank in it
  have hsolid : ∀ c ∈ h.code, isSpace c = false :=
    fun c hc => isSpace_of_isDigit c (List.all_eq_true.1 hp.code.2 c hc)
  rcases trim_statusLine h hp with ⟨tail, hline, htail⟩
  have hne : h.version ++ ' ' :: (h.code ++ tail) ≠ [] :=
    List.append_ne_nil_of_right_ne_nil _ (List.cons_ne_nil _ _)
  have hblank : ' ' ∉ h.version := by
    intro hm
    exact absurd (hp.version.2 ' ' hm) (by decide)
  have hblank' : ' ' ∉ h.code := by
    intro hm
    exact absurd (hsolid ' ' hm) (by decide)
  -- the first blank ends the version, and the next one, or the line, ends the code
  have hfirst : indexOfChar (h.version ++ ' ' :: (h.code ++ tail)) ' ' 0 =
      (h.version.length : Int) := by
    rw [indexOfChar, indexOf_zero _ _ hne, Search.find_singleton ' ' h.version _ hblank]
  have hpos : ((h.version.length : Int) + 1) = ((h.version ++ [' ']).length : Int) := by
    rw [List.length_append, List.length_singleton]
    rfl
  have hjoin : h.version ++ ' ' :: (h.code ++ tail) = (h.version ++ [' ']) ++ (h.code ++ tail) := by
    rw [List.append_assoc, List.singleton_append]
  have hcode : substring (h.version ++ ' ' :: (h.code ++ tail)) ((h.version.length : Int) + 1)
      (indexOfChar (h.version ++ ' ' :: (h.code ++ tail)) ' ' ((h.version.length : Int) + 1)) =
        h.code := by
    rw [hpos, hjoin, indexOfChar, indexOf_append _ _ _ (List.append_ne_nil_of_left_ne_nil
      hp.code.1 tail)]
    cases tail with
    | nil =>
        rw [List.append_nil, Search.find_singleton_eq_none ' ' h.code hblank']
        exact substring_to_end _ _
    | cons c tail =>
        have hc : c = ' ' := by
          rcases htail with hnil | hhead
          · exact absurd hnil (List.cons_ne_nil c tail)
          · exact Option.some.inj hhead
        rw [hc, Search.find_singleton ' ' h.code tail hblank']
        exact substring_between _ _ _
  rw [hline]
  refine ⟨hne, ?_⟩
  simp only [readStatusLine, hfirst, hcode]
  exact strtol_of_digits h.code hp.code.1 hp.code.2

/-! ### The fields -/

/-- The state after the fields. -/
def applyFields (lib : TimeLibrary) (moment : Moment) (host : Text) (st : HeadState)
    (fields : List Field) : HeadState :=
  fields.foldl (fun st f =>
    { applyField lib moment host st f.name f.value with lines := st.lines + 1 }) st

theorem readLines_fields (lib : TimeLibrary) (moment : Moment) (host : Text) (st : HeadState)
    (hst : st.firstLine = false) (fields : List Field) (h : ∀ f ∈ fields, f.Plain) :
    readLines lib moment host st (fields.map Field.line) =
      applyFields lib moment host st fields := by
  induction fields generalizing st with
  | nil => rfl
  | cons f fields ih =>
      have hf := readField_of_field lib moment host st f (h f List.mem_cons_self)
      have hline : readLine lib moment host st (trim f.line) =
          { applyField lib moment host st f.name f.value with lines := st.lines + 1 } := by
        rw [readLine]
        simp only [hst, Bool.false_eq_true, if_false, hf.2]
      rw [List.map_cons, readLines, List.foldl_cons, hline, applyFields, List.foldl_cons]
      exact ih _ hst (fun g hg => h g (List.mem_cons_of_mem f hg))

theorem valuesOf_cons (name : Text) (f : Field) (fields : List Field) :
    valuesOf name (f :: fields) =
      if equalsIgnoreCase f.name name = true then f.value :: valuesOf name fields
      else valuesOf name fields := by
  unfold valuesOf
  by_cases h : equalsIgnoreCase f.name name = true
  · simp only [List.filter_cons, h, if_true, List.map_cons]
  · simp only [List.filter_cons, h, if_false, Bool.false_eq_true]

/-- What is set by each field of a name is set by the last of them. -/
theorem last_applyFields {β : Type} (lib : TimeLibrary) (moment : Moment) (host : Text)
    (get : HeadState → β) (name : Text) (set : Text → β)
    (hget : ∀ st (f : Field), get { applyField lib moment host st f.name f.value with
      lines := st.lines + 1 } =
        if equalsIgnoreCase f.name name = true then set f.value else get st)
    (st : HeadState) (fields : List Field) :
    get (applyFields lib moment host st fields) =
      match (valuesOf name fields).getLast? with
      | some value => set value
      | none => get st := by
  induction fields generalizing st with
  | nil => rfl
  | cons f fields ih =>
      rw [applyFields, List.foldl_cons]
      refine (ih _).trans ?_
      rw [hget, valuesOf_cons]
      by_cases h : equalsIgnoreCase f.name name = true
      · rw [if_pos h, if_pos h, List.getLast?_cons]
        cases (valuesOf name fields).getLast? <;> rfl
      · rw [if_neg h, if_neg h]

theorem size_applyFields (lib : TimeLibrary) (moment : Moment) (host : Text) (st : HeadState)
    (hst : st.answer.size = -1) (fields : List Field) :
    (applyFields lib moment host st fields).answer.size = sizeOf fields := by
  rw [sizeOf, ← hst]
  exact last_applyFields lib moment host (fun st => st.answer.size) "Content-Length".toList toInt
    (fun _ _ => rfl) st fields

theorem coding_applyFields (lib : TimeLibrary) (moment : Moment) (host : Text) (st : HeadState)
    (hst : st.transferEncoding = []) (fields : List Field) :
    (applyFields lib moment host st fields).transferEncoding = codingOf fields := by
  have hlast := last_applyFields lib moment host (fun st => st.transferEncoding)
    "Transfer-Encoding".toList id (fun _ _ => rfl) st fields
  rw [codingOf]
  refine hlast.trans ?_
  cases (valuesOf "Transfer-Encoding".toList fields).getLast? with
  | none => exact hst
  | some v => rfl

theorem returnCode_applyFields (lib : TimeLibrary) (moment : Moment) (host : Text) (st : HeadState)
    (fields : List Field) :
    (applyFields lib moment host st fields).answer.returnCode = st.answer.returnCode := by
  induction fields generalizing st with
  | nil => rfl
  | cons f fields ih =>
      rw [applyFields, List.foldl_cons]
      exact ih _

/-! ### A whole head -/

/-- A transfer encoding that the client knows, or none. -/
def KnownCoding (coding : Text) : Prop :=
  coding = [] ∨ equalsIgnoreCase coding "chunked".toList = true ∨
    equalsIgnoreCase coding "identity".toList = true

/-- The encoding by which the client reads the body. -/
def encodingFor (coding : Text) : TransferEncoding :=
  if equalsIgnoreCase coding "chunked".toList then .chunked else .identity

instance (coding : Text) : Decidable (KnownCoding coding) :=
  inferInstanceAs (Decidable (_ ∨ _ ∨ _))

theorem finishHead_of_coding (st : HeadState)
    (hcode : st.answer.returnCode ≠ 0) :
    (finishHead st).1.size = st.answer.size ∧
      (KnownCoding st.transferEncoding →
        (finishHead st).1.transferEncoding = encodingFor st.transferEncoding ∧
          (finishHead st).2 = st.answer.returnCode) ∧
      (¬ KnownCoding st.transferEncoding → (finishHead st).2 = errorEncoding) := by
  unfold finishHead KnownCoding encodingFor
  by_cases hnil : st.transferEncoding = []
  · rw [hnil]
    exact ⟨rfl, fun _ => ⟨rfl, if_pos hcode⟩, fun hno => absurd (Or.inl rfl) hno⟩
  · by_cases hch : equalsIgnoreCase st.transferEncoding "chunked".toList = true
    · rw [if_neg hnil, if_pos hch, if_pos hch]
      exact ⟨rfl, fun _ => ⟨rfl, if_pos hcode⟩, fun hno => absurd (Or.inr (Or.inl hch)) hno⟩
    · by_cases hid : equalsIgnoreCase st.transferEncoding "identity".toList = true
      · rw [if_neg hnil, if_neg hch, if_pos hid, if_neg hch]
        exact ⟨rfl, fun _ => ⟨rfl, if_pos hcode⟩, fun hno => absurd (Or.inr (Or.inr hid)) hno⟩
      · rw [if_neg hnil, if_neg hch, if_neg hid]
        refine ⟨rfl, fun hyes => ?_, fun _ => rfl⟩
        rcases hyes with h | h | h
        · exact absurd h hnil
        · exact absurd h hch
        · exact absurd h hid

/-- The empty line sets nothing that the body depends on. -/
theorem readLine_empty (lib : TimeLibrary) (moment : Moment) (host : Text) (st : HeadState)
    (hst : st.firstLine = false) :
    (readLine lib moment host st []).answer.size = st.answer.size ∧
      (readLine lib moment host st []).answer.returnCode = st.answer.returnCode ∧
      (readLine lib moment host st []).transferEncoding = st.transferEncoding := by
  rw [readLine]
  simp only [hst, Bool.false_eq_true, if_false]
  exact ⟨rfl, rfl, rfl⟩

theorem newline_not_mem_lines (h : Head) (hp : h.Plain) : ∀ line ∈ h.lines, '\n' ∉ line := by
  intro line hline
  have hsolid : ∀ s : Text, (∀ c ∈ s, isSpace c = false) → '\n' ∉ s :=
    fun s hs hm => absurd (hs '\n' hm) (by decide)
  rcases List.mem_cons.1 hline with rfl | hline
  · rw [Head.statusLine]
    simp only [List.mem_append, List.mem_cons, not_or]
    refine ⟨hsolid _ hp.version.2, by decide, hsolid _ ?_, by decide, hp.reason⟩
    exact fun c hc => isSpace_of_isDigit c (List.all_eq_true.1 hp.code.2 c hc)
  · rcases List.mem_map.1 hline with ⟨f, hf, rfl⟩
    have hplain := hp.fields f hf
    rw [Field.line, List.mem_append, List.mem_cons, not_or, not_or]
    exact ⟨hsolid _ fun c hc => (hplain.2.1 c hc).1, by decide, hplain.2.2⟩

/-- The state behind the status line. -/
def statusState (c : HTTPClient) (h : Head) : HeadState :=
  { readStatusLine { answer := c.unanswered } (trim h.statusLine) with lines := 1 }

/-- The state before the empty line. -/
theorem readLines_head (lib : TimeLibrary) (moment : Moment) (host : Text) (c : HTTPClient)
    (h : Head) (hp : h.Plain) :
    readLines lib moment host { answer := c.unanswered } h.lines =
      applyFields lib moment host (statusState c h) h.fields := by
  rw [Head.lines, readLines, List.foldl_cons]
  exact readLines_fields lib moment host (statusState c h) rfl h.fields hp.fields

theorem firstLine_applyFields (lib : TimeLibrary) (moment : Moment) (host : Text) (st : HeadState)
    (fields : List Field) :
    (applyFields lib moment host st fields).firstLine = st.firstLine := by
  induction fields generalizing st with
  | nil => rfl
  | cons f fields ih =>
      rw [applyFields, List.foldl_cons]
      exact ih _

theorem clampLong_pos (n : Nat) (h : 0 < n) : clampLong n ≠ 0 := by
  unfold clampLong
  omega

/-- A head that comes without a silence is read line by line, however it arrives,
and the connection is left at what follows it. -/
theorem handleHeaderResponse_eq (lib : TimeLibrary) (moment : Moment) (c : HTTPClient)
    (h : Head) (hp : h.Plain) (s : Source Char) (hprompt : Prompt s.ticks) (rest : Text)
    (hitems : items s.ticks = headText h.lines ++ rest) :
    ∃ ticks' st, items ticks' = rest ∧ Prompt ticks' ∧ ticks' <:+ s.ticks ∧
      st = readLine lib moment c.host
        (applyFields lib moment c.host (statusState c h) h.fields) [] ∧
      handleHeaderResponse lib moment c s =
        (c.answered (finishHead st).1, ⟨ticks', s.ending⟩, (finishHead st).2) := by
  have hlines : ∀ line ∈ h.lines, '\n' ∉ line ∧ trim line ≠ [] := by
    intro line hline
    refine ⟨newline_not_mem_lines h hp line hline, ?_⟩
    rcases List.mem_cons.1 hline with rfl | hline
    · exact (readStatusLine_code { answer := c.unanswered } h hp).1
    · rcases List.mem_map.1 hline with ⟨f, hf, rfl⟩
      exact (readField_of_field lib moment c.host { answer := c.unanswered } f
        (hp.fields f hf)).1
  rcases headLoop_of_lines lib moment c.host s.ending h.lines rest hlines
    { answer := c.unanswered } (s.ticks.length + 1) s.ticks hprompt (Nat.lt_succ_self _) hitems
    with ⟨ticks', hrest, hp', hsuf, hloop⟩
  -- The connection has at least the characters of the head.
  have hconn : s.connected = true := by
    cases hticks : s.ticks with
    | nil =>
        rw [hticks] at hitems
        exact absurd hitems.symm (List.append_ne_nil_of_left_ne_nil
          (List.append_ne_nil_of_right_ne_nil _ (List.cons_ne_nil _ _)) rest)
    | cons x ticks =>
        rw [Source.connected, hticks]
        rfl
  rw [readLines_head lib moment c.host c h hp] at hloop
  refine ⟨ticks', _, hrest, hp', hsuf, rfl, ?_⟩
  rw [handleHeaderResponse, if_pos hconn]
  simp only [hloop]

/-- The code, the size and the encoding are those of the head. -/
theorem handleHeaderResponse_of_head (lib : TimeLibrary) (moment : Moment) (c : HTTPClient)
    (h : Head) (hp : h.Plain) (s : Source Char) (hprompt : Prompt s.ticks) (rest : Text)
    (hitems : items s.ticks = headText h.lines ++ rest) :
    ∃ ticks', items ticks' = rest ∧ Prompt ticks' ∧ ticks' <:+ s.ticks ∧
      (handleHeaderResponse lib moment c s).2.1 = ⟨ticks', s.ending⟩ ∧
      (handleHeaderResponse lib moment c s).1.size = sizeOf h.fields ∧
      (KnownCoding (codingOf h.fields) →
        (handleHeaderResponse lib moment c s).1.transferEncoding =
            encodingFor (codingOf h.fields) ∧
          (handleHeaderResponse lib moment c s).2.2 = clampLong h.status) ∧
      (¬ KnownCoding (codingOf h.fields) →
        (handleHeaderResponse lib moment c s).2.2 = errorEncoding) := by
  rcases handleHeaderResponse_eq lib moment c h hp s hprompt rest hitems with
    ⟨ticks', st, hrest, hp', hsuf, hst, hhandle⟩
  -- the code is that of the status line, which the fields leave alone
  have hcode : (statusState c h).answer.returnCode = clampLong h.status :=
    (readStatusLine_code { answer := c.unanswered } h hp).2
  have hempty := readLine_empty lib moment c.host
    (applyFields lib moment c.host (statusState c h) h.fields)
    ((firstLine_applyFields lib moment c.host (statusState c h) h.fields).trans rfl)
  rw [returnCode_applyFields, size_applyFields lib moment c.host (statusState c h) rfl,
    coding_applyFields lib moment c.host (statusState c h) rfl, hcode, ← hst] at hempty
  have hfinish := finishHead_of_coding st
    (by rw [hempty.2.1]; exact clampLong_pos _ hp.status)
  rw [hempty.1, hempty.2.1, hempty.2.2] at hfinish
  rw [hhandle]
  exact ⟨ticks', hrest, hp', hsuf, rfl, hfinish.1, hfinish.2.1, hfinish.2.2⟩

end Http

end ArduinoBeken
