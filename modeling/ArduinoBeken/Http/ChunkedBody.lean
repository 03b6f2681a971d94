import ArduinoBeken.Http.Body

/-!
# Chunked Bodies

A chunked body is a list of chunks, each a line with its size in hexadecimal
and perhaps an extension, then its data, then the line of the last chunk, whose
size is zero. `writeToStream` should give the data of such a body back, and
should not take anything else for one.

The client reads the number a line begins with, whatever the rest of the line
is, and a line without a number reads as zero. It keeps to the contract where the
data fit an `int`, a `Content-Length`, if one was given, agrees with the chunks, and
every line that stands where a size has to stand is one (`chunkedContract_exact`).
Behind any other line but one of a negative number, a server can go on so that the
client takes for a body what is none.

A `LooseBody` is what passes under the client's reading.

## Main definitions

* `IsSizeLine`, `IsChunkedBody`, `encode`: The format.
* `Arrival`, `SizeLinesHold`, `LengthsAgree`: What is asked of the stream.
* `LooseChunks`, `LooseBody`: What the client reads as chunks.
* `ChunkedContract`: What is promised.

## Theorems

* `strtol_of_sizeLine`: The size in a line.
* `chunkLoop_of_loose`: Loose chunks are delivered.
* `loose_of_chunkLoop`: What is delivered came in loose chunks.
* `looseBody_of_encoded`: A chunked body that comes without a silence is loose.
* `wellFormed_of_loose`: Behind good lines, what is loose is a chunked body.
* `chunkedContract_exact`: When the contract holds.
-/

namespace ArduinoBeken

namespace Http

open Arrivals

/-! ### The format -/

/-- The end of a line. -/
def crlf : Text := "\r\n".toList

/-- A digit of a size. -/
def isHexDigit (c : Char) : Bool :=
  match digitValue c with
  | some d => decide (d < 16)
  | none => false

/-- The number that hexadecimal digits write. -/
def hexNumber (digits : Text) : Nat :=
  digits.foldl (fun n c => 16 * n + (digitValue c).getD 0) 0

/-- What may follow the size in its line: nothing, or an extension behind a
semicolon. -/
def IsExtension (ext : Text) : Prop :=
  (ext = [] ∨ ∃ pad t, ext = pad ++ ';' :: t ∧ ∀ c ∈ pad, c = ' ' ∨ c = '\t') ∧
    '\r' ∉ ext ∧ '\n' ∉ ext

/-- A line that tells a size: hexadecimal digits, and perhaps an extension. -/
def IsSizeLine (line : Text) (n : Nat) : Prop :=
  ∃ digits ext, line = digits ++ ext ∧ digits ≠ [] ∧ digits.all isHexDigit = true ∧
    hexNumber digits = n ∧ IsExtension ext

/-- A chunk that is not the last: the line of its size, and its data. -/
structure Chunk where
  line : Text
  data : Text
deriving DecidableEq, Repr

/-- The chunks have the sizes their lines give, and the last line gives zero. -/
def IsChunkedBody (chunks : List Chunk) (last : Text) : Prop :=
  (∀ c ∈ chunks, IsSizeLine c.line c.data.length ∧ c.data ≠ []) ∧ IsSizeLine last 0

/-- The text of a chunked body up to the end of its last line. -/
def encode (chunks : List Chunk) (last : Text) : Text :=
  chunks.flatMap (fun c => c.line ++ crlf ++ (c.data ++ crlf)) ++ (last ++ crlf)

/-- What chunks carry. -/
def dataOf (chunks : List Chunk) : Text :=
  chunks.flatMap Chunk.data

/-- A text that is a chunked body, up to the end of its last line. -/
def WellFormed (text : Text) : Prop :=
  ∃ chunks last, IsChunkedBody chunks last ∧ text = encode chunks last

/-! ### What passes for a body -/

/-- The stream up to some place, read as chunks by the number each line begins
with, and the data in them. -/
inductive LooseChunks : Source Char → Text → Source Char → Prop where
  | none (s : Source Char) : LooseChunks s [] s
  | chunk (s : Source Char) (n : Nat) (data : Text) (s' : Source Char)
      (hline : (takeUntil '\n' s.ending s.ticks).got ≠ [])
      (hpos : 0 < n)
      (hn : strtol 16 (trim (takeUntil '\n' s.ending s.ticks).got) = n)
      (hfits : n ≤ (items (takeUntil '\n' s.ending s.ticks).rest.ticks).length)
      (hcrlf : (takeExactly (takeUntil '\n' s.ending s.ticks).rest.ending 2
        (afterItems n (takeUntil '\n' s.ending s.ticks).rest.ticks)).got = crlf)
      (hrest : LooseChunks (takeExactly (takeUntil '\n' s.ending s.ticks).rest.ending 2
        (afterItems n (takeUntil '\n' s.ending s.ticks).rest.ticks)).rest data s') :
      LooseChunks s ((items (takeUntil '\n' s.ending s.ticks).rest.ticks).take n ++ data) s'

/-- The stream up to some place, read as a whole body: the last line begins
with no positive number, and the size the client compares with agrees. -/
structure LooseBody (size : Int) (s : Source Char) (data : Text) (s' : Source Char) : Prop where
  chunks : ∃ t, LooseChunks s data t ∧ (takeUntil '\n' t.ending t.ticks).got ≠ [] ∧
    strtol 16 (trim (takeUntil '\n' t.ending t.ticks).got) ≤ 0 ∧
    (size ≤ 0 → strtol 16 (trim (takeUntil '\n' t.ending t.ticks).got) = 0) ∧
    s' = (takeUntil '\n' t.ending t.ticks).rest
  agrees : 0 < size → addInt 0 data.length = size
  fits : 0 ≤ addInt 0 data.length

/-! ### The contract -/

/-- Into a sink that takes everything, a chunked body that comes without a
silence is decoded; and into no sink anything else is. -/
def ChunkedContract (size : Int) (s : Source Char) : Prop :=
  (∀ chunks last rest, IsChunkedBody chunks last → Prompt s.ticks →
    items s.ticks = encode chunks last ++ rest → ∀ (c : HTTPClient) (k : Sink),
    c.transferEncoding = .chunked → c.size = size → k.Accepting →
      (writeToStream c (some s) k).result = some ((dataOf chunks).length : Int) ∧
        (writeToStream c (some s) k).sink = k.took (dataOf chunks)) ∧
  (∀ (c : HTTPClient) (k : Sink) (r : Int), c.transferEncoding = .chunked → c.size = size →
    (writeToStream c (some s) k).result = some r → 0 ≤ r →
      ∃ consumed, items s.ticks =
          consumed ++ items (chunkLoop size (s.ticks.length + 1) 0 0 k s).source.ticks ∧
        WellFormed consumed)

/-! ### What is asked of the stream -/

/-- Where a chunked body comes without a silence, its data fit an `int` and the
`Content-Length`, if positive, is their length. -/
def LengthsAgree (size : Int) (s : Source Char) : Prop :=
  ∀ chunks last rest, IsChunkedBody chunks last → Prompt s.ticks →
    items s.ticks = encode chunks last ++ rest →
      (dataOf chunks).length < 2147483648 ∧ (size ≤ 0 ∨ size = (dataOf chunks).length)

/-- A size, a carriage return and a line feed, without a silence. -/
def IsSizeEntry (line stop : List (Tick Char)) (n : Nat) : Prop :=
  stop = [.item '\n'] ∧ ∃ text, IsSizeLine text n ∧ items line = text ++ ['\r']

/-- The line is one of a size that an `int` holds. Without a `Content-Length` a negative
number does no harm, as no sum agrees with it. -/
def Sizes (size : Int) (line stop : List (Tick Char)) : Prop :=
  (∃ n < 2147483648, IsSizeEntry line stop n) ∨ (size ≤ 0 ∧ strtol 16 (items line) < 0)

/-- A chunk as it arrives: the line of its size, the data with the pauses in them, and the
end of its line. -/
structure Arrival where
  line : List (Tick Char)
  data : List (Tick Char)
  tail : List (Tick Char)

/-- A chunk as it arrives. -/
def Arrival.ticks (a : Arrival) : List (Tick Char) :=
  a.line ++ ([.item '\n'] ++ (a.data ++ a.tail))

/-- What arrived is a chunk, without a silence but between its data. -/
structure Arrival.IsChunk (a : Arrival) : Prop where
  prompt : Prompt a.line
  size : IsSizeEntry a.line [.item '\n'] (items a.data).length
  data : EndsWithItem a.data
  tail : Prompt a.tail ∧ EndsWithItem a.tail ∧ items a.tail = crlf

/-- Behind chunks every line that is not empty is a line of a size. -/
def SizeLinesHold (size : Int) (s : Source Char) : Prop :=
  ∀ (as : List Arrival) (line stop rest : List (Tick Char)), (∀ a ∈ as, a.IsChunk) →
    s.ticks = as.flatMap Arrival.ticks ++ (line ++ (stop ++ rest)) →
      IsLine '\n' line stop rest → items line ≠ [] → Sizes size line stop

/-! ### The size in a line -/

theorem isHexDigit_spec (c : Char) (h : isHexDigit c = true) :
    ∃ d, digitValue c = some d ∧ d < 16 := by
  unfold isHexDigit at h
  cases hd : digitValue c with
  | none =>
      rw [hd] at h
      exact absurd h Bool.false_ne_true
  | some d =>
      rw [hd] at h
      exact ⟨d, rfl, of_decide_eq_true h⟩

theorem scanDigits_of_hex (v : Nat) (digits : Text) (h : digits.all isHexDigit = true) :
    scanDigits 16 v digits = digits.foldl (fun n c => 16 * n + (digitValue c).getD 0) v := by
  induction digits generalizing v with
  | nil => rfl
  | cons c digits ih =>
      rw [List.all_cons, Bool.and_eq_true] at h
      rcases isHexDigit_spec c h.1 with ⟨d, hd, hlt⟩
      simp only [scanDigits, hd, if_pos hlt, List.foldl_cons, Option.getD_some]
      rw [ih (v * 16 + d) h.2, Nat.mul_comm v 16]

theorem isHexDigit_ne (c d : Char) (hc : isHexDigit c = true) (hd : isHexDigit d = false) :
    c ≠ d := by
  intro h
  rw [h, hd] at hc
  exact absurd hc Bool.false_ne_true

theorem isSpace_of_hex (c : Char) (h : isHexDigit c = true) : isSpace c = false := by
  by_contra hs
  rw [Bool.not_eq_false] at hs
  rcases isHexDigit_spec c h with ⟨d, hd, -⟩
  rw [digitValue_of_space c hs] at hd
  exact absurd hd (fun h => nomatch h)

/-- The digits before something else are read as the number they write. -/
theorem strtol_of_hex (digits t : Text) (hne : digits ≠ []) (h : digits.all isHexDigit = true)
    (ht : EndsNumber 16 t) : strtol 16 (digits ++ t) = clampLong (hexNumber digits) := by
  cases digits with
  | nil => exact absurd rfl hne
  | cons c digits =>
      have hall := h
      rw [List.all_cons, Bool.and_eq_true] at h
      -- Neither a sign nor a `0x` can stand where all characters are hexadecimal digits.
      have hminus : some c ≠ some '-' := by
        intro he
        exact isHexDigit_ne c '-' h.1 (by decide) (Option.some.inj he)
      have hplus : some c ≠ some '+' := by
        intro he
        exact isHexDigit_ne c '+' h.1 (by decide) (Option.some.inj he)
      have hpre : afterHexPrefix (c :: digits) = c :: digits := by
        rw [afterHexPrefix, if_neg]
        rintro ⟨-, hx⟩
        cases digits with
        | nil => exact hx.elim (fun h => by cases h) (fun h => by cases h)
        | cons d digits =>
            rw [List.all_cons, Bool.and_eq_true] at h
            rcases hx with hx | hx
            · exact isHexDigit_ne d 'x' h.2.1 (by decide) (Option.some.inj hx)
            · exact isHexDigit_ne d 'X' h.2.1 (by decide) (Option.some.inj hx)
      rw [strtol, List.cons_append, List.dropWhile_cons_of_neg (by
        rw [isSpace_of_hex c h.1]; exact Bool.false_ne_true), ← List.cons_append,
        signed_append 16 _ t ht, signed, List.head?_cons, if_neg hminus, if_neg hplus, magnitude,
        if_pos rfl, hpre, scanDigits_of_hex 0 _ hall]
      rfl

theorem endsNumber_of_extension (ext t : Text) (h : IsExtension ext) (ht : EndsNumber 16 t) :
    EndsNumber 16 (ext ++ t) := by
  rcases h.1 with rfl | ⟨pad, u, rfl, hpad⟩
  · exact ht
  · intro c hc
    cases pad with
    | nil =>
        rw [← Option.some.inj (hc : some ';' = some c)]
        decide
    | cons p pad =>
        rw [← Option.some.inj (hc : some p = some c)]
        rcases hpad p List.mem_cons_self with rfl | rfl <;> decide

/-- A line of a size, as it is read with the carriage return behind it. -/
theorem strtol_of_sizeLine (line : Text) (n : Nat) (h : IsSizeLine line n) :
    strtol 16 (trim (line ++ ['\r'])) = clampLong n := by
  rcases h with ⟨digits, ext, rfl, hne, hall, hn, hext⟩
  rw [strtol_trim, List.append_assoc, strtol_of_hex digits _ hne hall, hn]
  refine endsNumber_of_extension ext ['\r'] hext (endsNumber_of_space 16 ['\r'] ?_)
  intro c hc
  rw [List.mem_singleton.1 hc]
  rfl

theorem sizeLine_no_lf (line : Text) (n : Nat) (h : IsSizeLine line n) : '\n' ∉ line := by
  rcases h with ⟨digits, ext, rfl, -, hall, -, hext⟩
  rw [List.mem_append, not_or]
  refine ⟨?_, hext.2.2⟩
  intro hm
  exact isHexDigit_ne '\n' '\n' (List.all_eq_true.1 hall _ hm) (by decide) rfl

/-! ### What is promised is loose -/

/-- A line behind a carriage return, however it arrives. -/
theorem takeUntil_line (line rest : Text) (s : Source Char) (hprompt : Prompt s.ticks)
    (hline : '\n' ∉ line) (h : items s.ticks = line ++ crlf ++ rest) :
    ∃ ticks', takeUntil '\n' s.ending s.ticks = ⟨line ++ ['\r'], true, ⟨ticks', s.ending⟩⟩ ∧
      items ticks' = rest ∧ Prompt ticks' := by
  have hlf : '\n' ∉ line ++ ['\r'] := by
    rw [List.mem_append, not_or]
    exact ⟨hline, by decide⟩
  rcases takeUntil_of_prompt '\n' s.ending s.ticks (line ++ ['\r']) rest hprompt hlf
    (by rw [h, crlf]; simp only [List.append_assoc]; rfl) with ⟨ticks', heq, hrest, hsuf⟩
  exact ⟨ticks', heq, hrest, hprompt.of_suffix hsuf⟩

theorem clampLong_of_fits (n : Nat) (h : n < 2147483648) : clampLong n = n := by
  unfold clampLong
  omega

theorem length_dataOf_cons (c : Chunk) (chunks : List Chunk) :
    (dataOf (c :: chunks)).length = c.data.length + (dataOf chunks).length := by
  rw [dataOf, List.flatMap_cons, List.length_append, dataOf]

/-- Chunks that come without a silence are loose chunks. -/
theorem looseChunks_of_encoded (chunks : List Chunk)
    (hvalid : ∀ c ∈ chunks, IsSizeLine c.line c.data.length ∧ c.data ≠ [])
    (hfits : (dataOf chunks).length < 2147483648) (s : Source Char) (hprompt : Prompt s.ticks)
    (rest : Text)
    (h : items s.ticks = chunks.flatMap (fun c => c.line ++ crlf ++ (c.data ++ crlf)) ++ rest) :
    ∃ ticks', LooseChunks s (dataOf chunks) ⟨ticks', s.ending⟩ ∧ items ticks' = rest ∧
      Prompt ticks' := by
  induction chunks generalizing s with
  | nil => exact ⟨s.ticks, LooseChunks.none s, h, hprompt⟩
  | cons c chunks ih =>
      have hc := hvalid c List.mem_cons_self
      rw [length_dataOf_cons] at hfits
      -- The line of the size.
      rcases takeUntil_line c.line
        (c.data ++ (crlf ++ (chunks.flatMap (fun c => c.line ++ crlf ++ (c.data ++ crlf)) ++ rest)))
        s hprompt (sizeLine_no_lf c.line _ hc.1)
        (by rw [h, List.flatMap_cons]; simp only [List.append_assoc]) with
        ⟨t1, hline, ht1, hp1⟩
      have hn : strtol 16 (trim (takeUntil '\n' s.ending s.ticks).got) = (c.data.length : Int) := by
        rw [hline, strtol_of_sizeLine c.line _ hc.1, clampLong_of_fits _ (by omega)]
      -- The data, and the line end behind them.
      have hafter : items (afterItems c.data.length t1) =
          crlf ++ (chunks.flatMap (fun c => c.line ++ crlf ++ (c.data ++ crlf)) ++ rest) := by
        rw [items_afterItems, ht1, List.drop_left]
      have hp2 : Prompt (afterItems c.data.length t1) := hp1.of_suffix (afterItems_suffix _ t1)
      rcases takeExactly_of_prompt s.ending (afterItems c.data.length t1) crlf _ hp2 hafter with
        ⟨t2, hcrlf, ht2, hsuf2⟩
      rcases ih (fun d hd => hvalid d (List.mem_cons_of_mem c hd)) (by omega) ⟨t2, s.ending⟩
        (hp2.of_suffix hsuf2) ht2 with ⟨t3, hchunks, ht3, hp3⟩
      refine ⟨t3, ?_, ht3, hp3⟩
      have hdata : (items (takeUntil '\n' s.ending s.ticks).rest.ticks).take c.data.length =
          c.data := by
        rw [hline]
        simp only []
        rw [ht1, List.take_left]
      have hnext := LooseChunks.chunk s c.data.length (dataOf chunks) ⟨t3, s.ending⟩
        (by rw [hline]; exact List.append_ne_nil_of_right_ne_nil _ (List.cons_ne_nil _ _))
        (List.length_pos_iff.2 hc.2) hn
        (by rw [hline]; simp only []; rw [ht1, List.length_append]; omega)
        (by rw [hline]; exact congrArg Taken.got hcrlf)
        (by rw [hline]; rw [show (2 : Nat) = crlf.length from rfl, hcrlf]; exact hchunks)
      rw [hdata] at hnext
      exact hnext

/-! ### What is loose is delivered -/

theorem strtol_le (base : Nat) (s : Text) : strtol base s ≤ 2147483647 := by
  unfold strtol clampLong
  omega

/-- A line that is read takes at least one tick. -/
theorem line_shorter (s : Source Char) (h : (takeUntil '\n' s.ending s.ticks).got ≠ []) :
    s.connected = true ∧
      (takeUntil '\n' s.ending s.ticks).rest.ticks.length < s.ticks.length := by
  rcases s with ⟨ticks, e⟩
  cases ticks with
  | nil => exact absurd rfl h
  | cons x ticks =>
      refine ⟨rfl, ?_⟩
      have := (takeUntil_shorter '\n' e x ticks).length_le
      rw [List.length_cons]
      exact Nat.lt_succ_of_le this

/-- Loose chunks are delivered. -/
theorem chunkLoop_of_loose (sizeField : Int) (s s' : Source Char) (data : Text)
    (h : LooseChunks s data s') (fuel : Nat) (hfuel : s.ticks.length < fuel) (ret size : Int)
    (hret : addInt ret 0 = ret) (hsize : addInt size 0 = size) (k : Sink) (hk : k.Accepting) :
    ∃ fuel', s'.ticks.length < fuel' ∧ chunkLoop sizeField fuel ret size k s =
      chunkLoop sizeField fuel' (addInt ret data.length) (addInt size data.length) (k.took data)
        s' := by
  induction h generalizing fuel ret size k with
  | none s =>
      refine ⟨fuel, hfuel, ?_⟩
      rw [List.length_nil, Sink.took_nil]
      exact congrArg₂ (chunkLoop sizeField fuel · · k s) hret.symm hsize.symm
  | chunk s n data s' hline hpos hn hfits hcrlf hrest ih =>
      -- One turn: the size line, a block of exactly `n` bytes, and the line end behind it.
      have hshort := line_shorter s hline
      cases fuel with
      | zero => exact absurd hfuel (Nat.not_lt_zero _)
      | succ fuel =>
          have hn31 := strtol_le 16 (trim (takeUntil '\n' s.ending s.ticks).got)
          rw [hn] at hn31
          have htake :
              ((items (takeUntil '\n' s.ending s.ticks).rest.ticks).take n).length = n := by
            rw [List.length_take]
            omega
          have hblock := dataBlock_sized k hk (takeUntil '\n' s.ending s.ticks).rest.ending
            (takeUntil '\n' s.ending s.ticks).rest.ticks
            ((items (takeUntil '\n' s.ending s.ticks).rest.ticks).take n)
            ((items (takeUntil '\n' s.ending s.ticks).rest.ticks).drop n)
            (by omega) (List.take_append_drop n _).symm
          rw [htake] at hblock
          have hlen : (takeExactly (takeUntil '\n' s.ending s.ticks).rest.ending 2
              (afterItems n (takeUntil '\n' s.ending s.ticks).rest.ticks)).rest.ticks.length <
                fuel := by
            have h1 := (takeExactly_rest (takeUntil '\n' s.ending s.ticks).rest.ending 2
              (afterItems n (takeUntil '\n' s.ending s.ticks).rest.ticks)).length_le
            have h2 := (afterItems_suffix n (takeUntil '\n' s.ending s.ticks).rest.ticks).length_le
            omega
          -- What is left is shorter than the fuel, so the rest of the chunks goes through.
          rcases ih fuel hlen (addInt ret n) (addInt size n) (by rw [addInt_addInt, Int.add_zero])
            (by rw [addInt_addInt, Int.add_zero])
            (k.took ((items (takeUntil '\n' s.ending s.ticks).rest.ticks).take n)) (hk.took _) with
            ⟨fuel', hfuel', heq⟩
          refine ⟨fuel', hfuel', ?_⟩
          rw [chunkLoop, if_pos hshort.1]
          simp only [hn]
          rw [if_neg hline, if_pos (by omega), hblock]
          simp only []
          rw [if_neg (by omega), show "\r\n".toList = crlf from rfl, if_pos hcrlf, heq,
            addInt_addInt, addInt_addInt, Sink.took_took, List.length_append, htake]
          rfl

/-- The last line ends the loop. -/
theorem chunkLoop_last (sizeField : Int) (fuel : Nat) (ret size : Int) (k : Sink) (s : Source Char)
    (hline : (takeUntil '\n' s.ending s.ticks).got ≠ [])
    (hn : strtol 16 (trim (takeUntil '\n' s.ending s.ticks).got) ≤ 0) :
    chunkLoop sizeField (fuel + 1) ret size k s =
      let size' :=
        if sizeField ≤ 0 then
          addInt size (strtol 16 (trim (takeUntil '\n' s.ending s.ticks).got))
        else sizeField
      { sink := k, source := (takeUntil '\n' s.ending s.ticks).rest, size := size'
        result := if ret ≠ size' then some errorStreamWrite else some ret
        complete := decide (ret = size') } := by
  rw [chunkLoop, if_pos (line_shorter s hline).1]
  simp only []
  rw [if_neg hline, if_neg (by omega)]

/-- A loose body is delivered, into a sink that takes everything. -/
theorem chunkLoop_of_looseBody (size : Int) (s s' : Source Char) (data : Text)
    (h : LooseBody size s data s') (k : Sink) (hk : k.Accepting) :
    (chunkLoop size (s.ticks.length + 1) 0 0 k s).sink = k.took data ∧
      (chunkLoop size (s.ticks.length + 1) 0 0 k s).source = s' ∧
      (chunkLoop size (s.ticks.length + 1) 0 0 k s).result = some (addInt 0 data.length) := by
  rcases h.chunks with ⟨t, hchunks, hline, hneg, hzero, hs'⟩
  rcases chunkLoop_of_loose size s t data hchunks (s.ticks.length + 1) (Nat.lt_succ_self _) 0 0
    rfl rfl k hk with ⟨fuel, hfuel, heq⟩
  cases fuel with
  | zero => exact absurd hfuel (Nat.not_lt_zero _)
  | succ fuel =>
      rw [heq, chunkLoop_last size fuel _ _ _ t hline hneg]
      refine ⟨rfl, hs'.symm, ?_⟩
      simp only []
      rw [if_neg]
      rw [not_not]
      by_cases hpos : size ≤ 0
      · rw [if_pos hpos, hzero hpos, addInt_addInt, Int.add_zero]
      · rw [if_neg hpos]
        exact h.agrees (by omega)

/-! ### What is delivered is loose -/

theorem addInt_lt (a b : Int) : addInt a b < 2147483648 := by
  have := Int.bmod_lt (x := a + b) (m := 2 ^ 32) (by decide)
  exact this

/-- A turn that reads a positive size and ends in no error: the block is read whole, CR LF follow
it, and the loop goes on behind them. -/
theorem chunkLoop_chunk (sizeField : Int) (fuel : Nat) (ret size : Int) (k : Sink) (s : Source Char)
    (hline : (takeUntil '\n' s.ending s.ticks).got ≠ []) (n : Int)
    (hn : strtol 16 (trim (takeUntil '\n' s.ending s.ticks).got) = n) (hpos : 0 < n) (r : Int)
    (hr : 0 ≤ r) (h : (chunkLoop sizeField (fuel + 1) ret size k s).result = some r) :
    ∃ (d : Text) (k' : Sink) (rest : Taken Char), (d.length : Int) = n ∧
      items (takeUntil '\n' s.ending s.ticks).rest.ticks =
        d ++ items (afterItems d.length (takeUntil '\n' s.ending s.ticks).rest.ticks) ∧
      rest = takeExactly (takeUntil '\n' s.ending s.ticks).rest.ending 2
        (afterItems d.length (takeUntil '\n' s.ending s.ticks).rest.ticks) ∧ rest.got = crlf ∧
      chunkLoop sizeField (fuel + 1) ret size k s =
        chunkLoop sizeField fuel (addInt ret n) (addInt size n) k' rest.rest := by
  have hn31 := strtol_le 16 (trim (takeUntil '\n' s.ending s.ticks).got)
  -- every error is negative, so it is no result of this kind
  have herr : ∀ e : Int, e < 0 → some e ≠ some r := by
    intro e he heq
    have := Option.some.inj heq
    omega
  rw [chunkLoop, if_pos (line_shorter s hline).1] at h ⊢
  simp only [hn, if_neg hline, if_pos hpos] at h ⊢
  -- the block may hang, end in an error, or be read
  cases hb : (writeToStreamDataBlock n k (takeUntil '\n' s.ending s.ticks).rest).2.2 with
  | none =>
      simp only [hb] at h
      exact absurd h (fun hno => nomatch hno)
  | some b =>
      simp only [hb] at h ⊢
      by_cases hneg : b < 0
      · rw [if_pos hneg] at h
        exact absurd h (herr b hneg)
      · rw [if_neg hneg] at h ⊢
        rcases dataBlock_exact k (takeUntil '\n' s.ending s.ticks).rest.ending
          (takeUntil '\n' s.ending s.ticks).rest.ticks n hpos (by omega) b (by omega) hb
          with ⟨d, hsrc, hitems, -, hd, hbn⟩
        simp only [hsrc] at h ⊢
        by_cases hcrlf : (takeExactly (takeUntil '\n' s.ending s.ticks).rest.ending 2
            (afterItems d.length (takeUntil '\n' s.ending s.ticks).rest.ticks)).got =
              "\r\n".toList
        · rw [if_pos hcrlf, hbn]
          exact ⟨d, _, _, hd, hitems, rfl, hcrlf, rfl⟩
        · rw [if_neg hcrlf] at h
          exact absurd h (herr errorReadTimeout (by decide))

/-- What is delivered came in loose chunks, whatever the sink. -/
theorem loose_of_chunkLoop (sizeField : Int) (fuel : Nat) (ret size : Int)
    (hret : addInt ret 0 = ret) (hsize : addInt size 0 = size) (k : Sink) (s : Source Char)
    (hfuel : s.ticks.length < fuel) (r : Int) (hr : 0 ≤ r)
    (h : (chunkLoop sizeField fuel ret size k s).result = some r) :
    ∃ data t, LooseChunks s data t ∧ (takeUntil '\n' t.ending t.ticks).got ≠ [] ∧
      strtol 16 (trim (takeUntil '\n' t.ending t.ticks).got) ≤ 0 ∧
      (chunkLoop sizeField fuel ret size k s).source = (takeUntil '\n' t.ending t.ticks).rest ∧
      r = addInt ret data.length ∧
      r = (if sizeField ≤ 0 then addInt size
        (data.length + strtol 16 (trim (takeUntil '\n' t.ending t.ticks).got)) else sizeField) := by
  -- on the fuel: a turn reads a size line, and for a positive size the block and its CR LF
  induction fuel generalizing ret size k s with
  | zero => exact absurd hfuel (Nat.not_lt_zero _)
  | succ fuel ih =>
      have herr : ∀ e : Int, e < 0 → some e ≠ some r := by
        intro e he heq
        have := Option.some.inj heq
        omega
      by_cases hline : (takeUntil '\n' s.ending s.ticks).got = []
      · -- no line: the connection is gone, or the time is up
        rw [chunkLoop] at h
        simp only [hline, if_true] at h
        split at h
        · exact absurd h (herr errorReadTimeout (by decide))
        · exact absurd h (herr errorConnectionLost (by decide))
      by_cases hpos : 0 < strtol 16 (trim (takeUntil '\n' s.ending s.ticks).got)
      · rcases chunkLoop_chunk sizeField fuel ret size k s hline _ rfl hpos r hr h with
          ⟨d, k', rest, hd, hitems, hrest, hcrlf, hloop⟩
        rw [hloop] at h ⊢
        -- what is left is shorter, so the fuel is enough for it
        have hlen : rest.rest.ticks.length < fuel := by
          have h1 := (takeExactly_rest (takeUntil '\n' s.ending s.ticks).rest.ending 2
            (afterItems d.length (takeUntil '\n' s.ending s.ticks).rest.ticks)).length_le
          have h2 := (afterItems_suffix d.length
            (takeUntil '\n' s.ending s.ticks).rest.ticks).length_le
          have hshort := (line_shorter s hline).2
          rw [hrest]
          omega
        rcases ih _ _ (by rw [addInt_addInt, Int.add_zero]) (by rw [addInt_addInt, Int.add_zero])
          k' rest.rest hlen h with ⟨data, t, hchunks, hgot, hlast, hsource, hr1, hr2⟩
        rw [hrest] at hchunks hcrlf
        have hloose := LooseChunks.chunk s d.length data t hline (by omega) hd.symm
          (by rw [hitems, List.length_append]; omega) hcrlf hchunks
        rw [hitems, List.take_left] at hloose
        refine ⟨d ++ data, t, hloose, hgot, hlast, hsource, ?_, ?_⟩
        · rw [hr1, addInt_addInt, ← hd, List.length_append]
          rfl
        · rw [hr2, addInt_addInt, ← hd, List.length_append, ← Int.add_assoc]
          rfl
      · have hneg : strtol 16 (trim (takeUntil '\n' s.ending s.ticks).got) ≤ 0 := by omega
        -- a size of zero or below ends the body, and the sum is compared with the expected one
        rw [chunkLoop_last sizeField fuel ret size k s hline hneg] at h ⊢
        generalize hv : (if sizeField ≤ 0 then
          addInt size (strtol 16 (trim (takeUntil '\n' s.ending s.ticks).got))
          else sizeField) = v at h
        simp only [] at h
        by_cases hne : ret ≠ v
        · rw [if_pos hne] at h
          exact absurd h (herr errorStreamWrite (by decide))
        · rw [if_neg hne] at h
          rw [not_not] at hne
          have hrr := Option.some.inj h
          refine ⟨[], s, LooseChunks.none s, hline, hneg, rfl, ?_, ?_⟩
          · rw [← hrr]
            exact hret.symm
          · rw [← hrr, hne, ← hv, List.length_nil]
            exact congrArg (fun n => if sizeField ≤ 0 then addInt size n else sizeField)
              (Int.zero_add _).symm

/-- What is delivered was a loose body. -/
theorem looseBody_of_chunkLoop (size : Int) (k : Sink) (s : Source Char) (r : Int) (hr : 0 ≤ r)
    (h : (chunkLoop size (s.ticks.length + 1) 0 0 k s).result = some r) :
    ∃ data, LooseBody size s data (chunkLoop size (s.ticks.length + 1) 0 0 k s).source ∧
      r = addInt 0 data.length := by
  rcases loose_of_chunkLoop size (s.ticks.length + 1) 0 0 rfl rfl k s (Nat.lt_succ_self _) r hr h
    with ⟨data, t, hchunks, hgot, hlast, hsource, hr1, hr2⟩
  refine ⟨data, ⟨⟨t, hchunks, hgot, hlast, ?_, hsource⟩, ?_, ?_⟩, hr1⟩
  · intro hsize
    rw [if_pos hsize] at hr2
    -- Both sums are the same number, so the last line gave zero.
    have heq : addInt 0 data.length =
        addInt 0 (data.length + strtol 16 (trim (takeUntil '\n' t.ending t.ticks).got)) :=
      hr1.symm.trans hr2
    have hlo : -2147483648 ≤ strtol 16 (trim (takeUntil '\n' t.ending t.ticks).got) := by
      unfold strtol clampLong
      omega
    unfold addInt at heq
    rw [Int.bmod_eq_bmod_iff_bmod_sub_eq_zero] at heq
    have hdvd := Int.dvd_of_bmod_eq_zero heq
    omega
  · intro hsize
    rw [if_neg (by omega)] at hr2
    exact hr1.symm.trans hr2
  · exact hr1 ▸ hr

/-! ### The contract, exactly -/

/-- The body of a chunked response is what the loop over the chunks reads. -/
theorem writeToStream_chunked (c : HTTPClient) (s : Source Char) (hs : s.connected = true)
    (k : Sink) (hc : c.transferEncoding = .chunked) :
    (writeToStream c (some s) k).result =
        (chunkLoop c.size (s.ticks.length + 1) 0 0 k s).result ∧
      (writeToStream c (some s) k).sink = (chunkLoop c.size (s.ticks.length + 1) 0 0 k s).sink := by
  simp only [writeToStream, hs, if_true, hc]
  exact bodyEnd_result _ _ _ _ _

/-- A chunked body that comes without a silence is a loose body, if its data
fit and the size agrees, and it ends with its last line. -/
theorem looseBody_of_encoded (size : Int) (s : Source Char) (chunks : List Chunk)
    (last rest : Text) (hbody : IsChunkedBody chunks last) (hprompt : Prompt s.ticks)
    (h : items s.ticks = encode chunks last ++ rest)
    (hfits : (dataOf chunks).length < 2147483648)
    (hsize : size ≤ 0 ∨ size = (dataOf chunks).length) :
    ∃ s', LooseBody size s (dataOf chunks) s' ∧ items s'.ticks = rest := by
  rcases looseChunks_of_encoded chunks hbody.1 hfits s hprompt (last ++ crlf ++ rest)
    (by rw [h, encode]; simp only [List.append_assoc]) with ⟨ticks, hchunks, hitems, hp⟩
  -- behind the chunks stands the line with the last size, which is zero
  rcases takeUntil_line last rest ⟨ticks, s.ending⟩ hp (sizeLine_no_lf last 0 hbody.2) hitems with
    ⟨ticks', hline, hrest, -⟩
  have hzero : strtol 16 (trim (takeUntil '\n' s.ending ticks).got) = 0 := by
    rw [hline, strtol_of_sizeLine last 0 hbody.2]
    rfl
  have htotal := addInt_zero_of_size (dataOf chunks).length hfits
  refine ⟨_, ⟨⟨_, hchunks, ?_, Int.le_of_eq hzero, fun _ => hzero, rfl⟩, ?_, ?_⟩, ?_⟩
  · rw [hline]
    exact List.append_ne_nil_of_right_ne_nil _ (List.cons_ne_nil _ _)
  · intro hpos
    rw [htotal]
    omega
  · rw [htotal]
    omega
  · rw [hline]
    exact hrest

/-! ### Behind good lines -/

theorem strtol_of_entry (line stop : List (Tick Char)) (n : Nat) (h : IsSizeEntry line stop n)
    (hn : n < 2147483648) : strtol 16 (trim (items line)) = n := by
  rcases h.2 with ⟨text, htext, hline⟩
  rw [hline, strtol_of_sizeLine text n htext, clampLong_of_fits n hn]

/-- What is behind a chunk has good lines, if all has. -/
theorem SizeLinesHold.behind {size : Int} {s : Source Char} (h : SizeLinesHold size s)
    (a : Arrival) (ha : a.IsChunk) {ticks : List (Tick Char)} (hsplit : s.ticks = a.ticks ++ ticks)
    (e : Ending) : SizeLinesHold size ⟨ticks, e⟩ := by
  intro as line stop rest has hticks hline hsome
  refine h (a :: as) line stop rest ?_ ?_ hline hsome
  · intro b hb
    rcases List.mem_cons.1 hb with rfl | hb
    · exact ha
    · exact has b hb
  · rw [List.flatMap_cons, List.append_assoc, hsplit]
    exact congrArg (a.ticks ++ ·) hticks

/-- Behind good lines, what is loose is a chunked body. The induction is on the chunks. -/
theorem wellFormed_of_loose (size : Int) (s t : Source Char) (data : Text)
    (hchunks : LooseChunks s data t) (hlines : SizeLinesHold size s)
    (hline : (takeUntil '\n' t.ending t.ticks).got ≠ [])
    (hneg : strtol 16 (trim (takeUntil '\n' t.ending t.ticks).got) ≤ 0)
    (hzero : size ≤ 0 → strtol 16 (trim (takeUntil '\n' t.ending t.ticks).got) = 0) :
    ∃ chunks last, IsChunkedBody chunks last ∧
      items s.ticks = encode chunks last ++ items (takeUntil '\n' t.ending t.ticks).rest.ticks := by
  -- on the chunks as the decoder has taken them
  induction hchunks with
  | none s =>
      -- the last line is that of the last chunk
      rcases takeUntil_isLine '\n' s.ending s.ticks with ⟨line, stop, hsplit, his, hgot, -⟩
      rw [← hgot] at hline hneg hzero
      rcases hlines [] line stop _ (fun a ha => absurd ha List.not_mem_nil) hsplit his hline with
        ⟨n, hn, hentry⟩ | ⟨hsize, hminus⟩
      · rw [strtol_of_entry line stop n hentry hn] at hneg
        have hn0 : n = 0 := by omega
        rcases hentry with ⟨rfl, last, hlast, hitems⟩
        refine ⟨[], last, ⟨fun c hc => absurd hc List.not_mem_nil, hn0 ▸ hlast⟩, ?_⟩
        nth_rewrite 1 [hsplit]
        rw [items_append, items_append, hitems, encode, crlf]
        simp
      -- a line that stands for no size is read as -1, which a complete body excludes here
      · rw [← strtol_trim, hzero hsize] at hminus
        exact absurd hminus (Int.lt_irrefl 0)
  | chunk s n data t hfirst hpos hn hfits hcrlf hrest ih =>
      rcases takeUntil_isLine '\n' s.ending s.ticks with ⟨line, stop, hsplit, his, hgot, hending⟩
      rw [← hgot] at hfirst hn
      rcases hlines [] line stop _ (fun a ha => absurd ha List.not_mem_nil) hsplit his hfirst with
        ⟨m, hm, hentry⟩ | ⟨-, hminus⟩
      · -- the line is that of a chunk, whose data and line end are there
        rw [strtol_of_entry line stop m hentry hm] at hn
        have hmn : m = n := by omega
        subst hmn
        -- the block is as long as the line says, and CR LF follow it
        rcases afterItems_split m hpos _ hfits with ⟨block, hblock, hends, hitems⟩
        have htwo : (takeExactly (takeUntil '\n' s.ending s.ticks).rest.ending 2
            (afterItems m (takeUntil '\n' s.ending s.ticks).rest.ticks)).got.length = 2 := by
          rw [hcrlf]
          rfl
        rcases takeExactly_split _ 2 (by omega) _ htwo with
          ⟨tail, htail, hprompt, hlast, hgot2, -⟩
        have hstop := hentry.1
        have hlen : (items block).length = m := by
          rw [hitems, List.length_take]
          omega
        have hchunk : Arrival.IsChunk ⟨line, block, tail⟩ :=
          ⟨his.prompt, by rw [← hstop, hlen]; exact hentry, hends, hprompt, hlast,
            hgot2.trans hcrlf⟩
        have hall : s.ticks = Arrival.ticks ⟨line, block, tail⟩ ++
            (takeExactly (takeUntil '\n' s.ending s.ticks).rest.ending 2
              (afterItems m (takeUntil '\n' s.ending s.ticks).rest.ticks)).rest.ticks := by
          rw [Arrival.ticks, ← hstop]
          simp only [List.append_assoc]
          rw [← htail, ← hblock]
          exact hsplit
        rcases ih (hlines.behind _ hchunk hall _) hline hneg hzero with
          ⟨chunks, last, hbody, htext⟩
        rcases hentry.2 with ⟨text, htextsize, hitemsline⟩
        refine ⟨⟨text, items block⟩ :: chunks, last, ⟨?_, hbody.2⟩, ?_⟩
        · intro c hc
          rcases List.mem_cons.1 hc with rfl | hc
          · exact ⟨by rw [hlen]; exact htextsize, List.length_pos_iff.1 (by rw [hlen]; exact hpos)⟩
          · exact hbody.1 c hc
        · rw [hall, items_append, htext, Arrival.ticks]
          simp only [items_append, hitemsline, hgot2.trans hcrlf, encode, List.flatMap_cons, crlf]
          simp
      · rw [← strtol_trim, hn] at hminus
        omega

/-! ### Behind other lines -/

/-- A size line gives one size. -/
theorem sizeLine_unique (line : Text) (n m : Nat) (h : IsSizeLine line n)
    (g : IsSizeLine line m) : n = m := by
  have hdigits (k : Nat) (hk : IsSizeLine line k) : hexNumber (line.takeWhile isHexDigit) = k := by
    rcases hk with ⟨digits, ext, rfl, -, hall, hnumber, hext⟩
    have hstop : ext.takeWhile isHexDigit = [] := by
      rcases hext.1 with rfl | ⟨pad, t, rfl, hpad⟩
      · rfl
      · cases pad with
        | nil => exact List.takeWhile_cons_of_neg (by decide)
        | cons c pad =>
            refine List.takeWhile_cons_of_neg ?_
            rcases hpad c List.mem_cons_self with rfl | rfl <;> decide
    rw [List.takeWhile_append_of_pos (List.all_eq_true.1 hall), hstop, List.append_nil, hnumber]
  rw [← hdigits n h, hdigits m g]

/-- What stands before the first line feed is determined. -/
theorem line_unique (l l' r r' : Text) (hl : '\n' ∉ l) (hl' : '\n' ∉ l')
    (h : l ++ '\n' :: r = l' ++ '\n' :: r') : l = l' ∧ r = r' := by
  have hbefore (t u : Text) (ht : '\n' ∉ t) :
      (t ++ '\n' :: u).takeWhile (fun c => decide (c ≠ '\n')) = t := by
    have hall : ∀ c ∈ t, decide (c ≠ '\n') = true := by
      intro c hc
      refine decide_eq_true fun he => ht ?_
      rw [← he]
      exact hc
    rw [List.takeWhile_append_of_pos hall, List.takeWhile_cons_of_neg (by decide),
      List.append_nil]
  have hsame : l = l' := by rw [← hbefore l r hl, h, hbefore l' r' hl']
  rw [hsame] at h
  exact ⟨hsame, List.cons.inj (List.append_cancel_left h) |>.2⟩

/-- The first line of a chunked body is that of its last chunk, or of its first. -/
theorem encode_line (chunks : List Chunk) (last line rest : Text)
    (hbody : IsChunkedBody chunks last) (hline : '\n' ∉ line)
    (h : line ++ '\n' :: rest = encode chunks last) :
    (line = last ++ ['\r'] ∧ rest = []) ∨
      ∃ (c : Chunk) (cs : List Chunk), IsSizeLine c.line c.data.length ∧ c.data ≠ [] ∧
        IsChunkedBody cs last ∧ line = c.line ++ ['\r'] ∧
        rest = c.data ++ (crlf ++ encode cs last) := by
  have hcr (text : Text) (n : Nat) (ht : IsSizeLine text n) : '\n' ∉ text ++ ['\r'] := by
    rw [List.mem_append, not_or]
    exact ⟨sizeLine_no_lf text n ht, by decide⟩
  cases chunks with
  | nil =>
      have htext : encode [] last = (last ++ ['\r']) ++ '\n' :: [] := by
        rw [encode, crlf]
        simp
      exact Or.inl (line_unique _ _ _ _ hline (hcr last 0 hbody.2) (h.trans htext))
  | cons c cs =>
      have hc := hbody.1 c List.mem_cons_self
      have htext : encode (c :: cs) last =
          (c.line ++ ['\r']) ++ '\n' :: (c.data ++ (crlf ++ encode cs last)) := by
        simp only [encode, List.flatMap_cons, crlf]
        simp
      rcases line_unique _ _ _ _ hline (hcr c.line _ hc.1) (h.trans htext) with ⟨hfirst, hrest⟩
      exact Or.inr ⟨c, cs, hc.1, hc.2,
        ⟨fun d hd => hbody.1 d (List.mem_cons_of_mem c hd), hbody.2⟩, hfirst, hrest⟩

/-- A chunked body that begins with a chunk goes on as one. -/
theorem encode_behind_chunk (a : Arrival) (ha : a.IsChunk) (chunks : List Chunk)
    (last rest : Text) (hbody : IsChunkedBody chunks last)
    (h : items a.ticks ++ rest = encode chunks last) :
    ∃ cs, IsChunkedBody cs last ∧ rest = encode cs last := by
  rcases ha.size.2 with ⟨text, htext, hitems⟩
  -- the data has characters, so the text goes on behind its size line
  have hsome : items a.data ≠ [] := by
    rcases ha.data with ⟨before, c, hdata⟩
    rw [hdata, items_append]
    exact List.append_ne_nil_of_right_ne_nil _ (List.cons_ne_nil _ _)
  -- the first line feed of both texts ends the size line
  have hline : '\n' ∉ text ++ ['\r'] := by
    rw [List.mem_append, not_or]
    exact ⟨sizeLine_no_lf text _ htext, by decide⟩
  have hsplit : (text ++ ['\r']) ++ '\n' :: (items a.data ++ (crlf ++ rest)) =
      encode chunks last := by
    rw [← h, Arrival.ticks]
    simp only [items_append, hitems, ha.tail.2.2, List.append_assoc]
    rfl
  rcases encode_line chunks last _ _ hbody hline hsplit with
    ⟨-, hnil⟩ | ⟨c, cs, hc, -, hcs, hfirst, hrest⟩
  · exact absurd (List.append_eq_nil_iff.1 hnil).1 hsome
  · rw [List.append_cancel_right hfirst] at htext
    have hlen := sizeLine_unique _ _ _ htext hc
    rcases List.append_inj hrest hlen with ⟨-, hbehind⟩
    exact ⟨cs, hcs, List.append_cancel_left hbehind⟩

theorem encode_behind (as : List Arrival) (has : ∀ a ∈ as, a.IsChunk) (chunks : List Chunk)
    (last rest : Text) (hbody : IsChunkedBody chunks last)
    (h : items (as.flatMap Arrival.ticks) ++ rest = encode chunks last) :
    ∃ cs, IsChunkedBody cs last ∧ rest = encode cs last := by
  induction as generalizing chunks with
  | nil => exact ⟨chunks, hbody, h⟩
  | cons a as ih =>
      rw [List.flatMap_cons, items_append, List.append_assoc] at h
      rcases encode_behind_chunk a (has a List.mem_cons_self) chunks last _ hbody h with
        ⟨cs, hcs, hrest⟩
      exact ih (fun b hb => has b (List.mem_cons_of_mem a hb)) cs hcs hrest

theorem length_encode (chunks : List Chunk) (last : Text) (h : IsChunkedBody chunks last) :
    3 ≤ (encode chunks last).length := by
  rcases h.2 with ⟨digits, ext, rfl, hne, -⟩
  have hpos := List.length_pos_iff.2 hne
  rw [encode, crlf]
  simp only [List.length_append]
  simp
  omega

/-- A line with a positive number, as many data and the end of their line are a loose chunk. -/
theorem looseChunks_cons (line stop data tail rest : List (Tick Char)) (e : Ending)
    (hline : IsLine '\n' line stop (data ++ (tail ++ rest))) (hstop : stop ≠ [])
    (hsome : items line ≠ []) (hends : EndsWithItem data)
    (hnumber : strtol 16 (items line) = (items data).length) (hprompt : Prompt tail)
    (hlast : EndsWithItem tail) (hcrlf : items tail = crlf) {d : Text} {s' : Source Char}
    (hrest : LooseChunks ⟨rest, e⟩ d s') :
    LooseChunks ⟨line ++ (stop ++ (data ++ (tail ++ rest))), e⟩ (items data ++ d) s' := by
  rcases takeUntil_of_isLine hline hstop e with ⟨hgot, hbehind⟩
  have hpos : 0 < (items data).length := by
    rcases hends with ⟨before, c, rfl⟩
    rw [items_append, List.length_append]
    exact Nat.lt_add_left _ Nat.zero_lt_one
  have hafter := afterItems_append data (tail ++ rest) hends
  have hexact := takeExactly_append e tail rest hprompt hlast
  have htwo : (items tail).length = 2 := by
    rw [hcrlf]
    rfl
  rw [htwo] at hexact
  have hnext := LooseChunks.chunk ⟨line ++ (stop ++ (data ++ (tail ++ rest))), e⟩
    (items data).length d s' (by rw [hgot]; exact hsome) hpos
    (by rw [hgot, strtol_trim]; exact hnumber)
    (by rw [hbehind, items_append, List.length_append]; omega)
    (by rw [hbehind, hafter, hexact.1, hcrlf])
    (by rw [hbehind, hafter, hexact.2]; exact hrest)
  rw [hbehind, items_append, List.take_left] at hnext
  exact hnext

/-- The length of the data of some chunks. -/
def lengthOf (as : List Arrival) : Nat :=
  (as.map fun a => (items a.data).length).sum

/-- Chunks are loose chunks. -/
theorem looseChunks_append (as : List Arrival) (has : ∀ a ∈ as, a.IsChunk)
    (hfits : lengthOf as < 2147483648) (rest : List (Tick Char)) (e : Ending) {d : Text}
    {s' : Source Char} (hrest : LooseChunks ⟨rest, e⟩ d s') :
    ∃ data, data.length = lengthOf as + d.length ∧
      LooseChunks ⟨as.flatMap Arrival.ticks ++ rest, e⟩ data s' := by
  -- by induction on the chunks in front
  induction as with
  | nil => exact ⟨d, (Nat.zero_add _).symm, hrest⟩
  | cons a as ih =>
      have ha := has a List.mem_cons_self
      have hsum : lengthOf (a :: as) = (items a.data).length + lengthOf as := rfl
      rcases ih (fun b hb => has b (List.mem_cons_of_mem a hb)) (by omega) with
        ⟨data, hdata, hloose⟩
      rcases ha.size.2 with ⟨text, htext, hitems⟩
      have hno : '\n' ∉ items a.line := by
        rw [hitems, List.mem_append, not_or]
        exact ⟨sizeLine_no_lf text _ htext, by decide⟩
      have hnumber := strtol_of_entry _ _ _ ha.size (by omega)
      rw [strtol_trim] at hnumber
      refine ⟨items a.data ++ data, by rw [List.length_append]; omega, ?_⟩
      have hcons := looseChunks_cons a.line [.item '\n'] a.data a.tail
        (as.flatMap Arrival.ticks ++ rest) e ⟨ha.prompt, hno, Or.inl rfl⟩
        (List.cons_ne_nil _ _) (by
          rw [hitems]
          exact List.append_ne_nil_of_right_ne_nil _ (List.cons_ne_nil _ _)) ha.data hnumber
        ha.tail.1 ha.tail.2.1 ha.tail.2.2 hloose
      rw [List.flatMap_cons, Arrival.ticks]
      simp only [List.append_assoc] at hcons ⊢
      exact hcons

/-- What comes behind a line with a number so that the body is over. -/
def completion (n : Nat) : List (Tick Char) :=
  if n = 0 then []
  else (List.replicate n 'x').map Tick.item ++
    (crlf.map Tick.item ++ ("0\r\n".toList).map Tick.item)

theorem items_completion (n : Nat) (hn : 0 < n) :
    items (completion n) = List.replicate n 'x' ++ (crlf ++ "0\r\n".toList) := by
  rw [completion, if_neg (by omega), items_append, items_append, items_map_item, items_map_item,
    items_map_item]

/-- What is completed so is no chunked body, unless the line is a size line. -/
theorem not_wellFormed_of_completion (as : List Arrival) (has : ∀ a ∈ as, a.IsChunk)
    (line stop : List (Tick Char)) (n : Nat) (hn : n < 2147483648)
    (hwhole : '\n' ∉ items line) (hstop : stop = [.item '\n'] ∨ stop = [.silence])
    (hnot : ¬∃ n < 2147483648, IsSizeEntry line stop n) :
    ¬WellFormed (items (as.flatMap Arrival.ticks ++ (line ++ (stop ++ completion n)))) := by
  rintro ⟨chunks, last, hbody, htext⟩
  rw [items_append] at htext
  rcases encode_behind as has chunks last _ hbody htext with ⟨cs, hcs, hrest⟩
  have hlong := length_encode cs last hcs
  rcases hstop with rfl | rfl
  · -- the line is that of a size, or the text is too short for the size it gives
    rw [items_append, items_append] at hrest
    rcases encode_line cs last (items line) (items (completion n)) hcs hwhole hrest with
      ⟨hlast, -⟩ | ⟨c, ds, hc, -, hds, hfirst, hbehind⟩
    -- the last chunk of a body is a line with the number zero
    · exact hnot ⟨0, by omega, rfl, last, hcs.2, hlast⟩
    · refine hnot ⟨c.data.length, ?_, rfl, c.line, hc, hfirst⟩
      have hlen := congrArg List.length hbehind
      have hds := length_encode ds last hds
      -- the completion is too short to hold another chunk
      rcases Nat.eq_zero_or_pos n with hzero | hpos
      · rw [hzero, List.length_append, List.length_append] at hlen
        have hnil : (items (completion 0)).length = 0 := rfl
        omega
      · rw [items_completion n hpos] at hlen
        simp only [List.length_append, List.length_replicate] at hlen
        have hthree : "0\r\n".toList.length = 3 := rfl
        omega
  · rw [items_append, items_append, items_silence, items_nil, List.nil_append] at hrest
    rcases Nat.eq_zero_or_pos n with hzero | hpos
    · -- a chunked body has a line feed
      rw [hzero] at hrest
      have hlf : '\n' ∈ encode cs last := by
        rw [encode, crlf]
        simp
      rw [← hrest, List.mem_append] at hlf
      exact hlf.elim hwhole List.not_mem_nil
    · rw [items_completion n hpos] at hrest
      have hline : '\n' ∉ items line ++ (List.replicate n 'x' ++ ['\r']) := by
        simp only [List.mem_append, List.mem_replicate, List.mem_singleton, not_or, not_and]
        exact ⟨hwhole, fun _ => by decide, by decide⟩
      rcases encode_line cs last (items line ++ (List.replicate n 'x' ++ ['\r']))
        "0\r\n".toList hcs hline (by rw [← hrest, crlf]; simp) with
        ⟨-, hnil⟩ | ⟨c, ds, -, hsome, hds, -, hbehind⟩
      · cases hnil
      · -- three characters are too few for data and what follows them
        have hlen := congrArg List.length hbehind
        have hds := length_encode ds last hds
        have hpos := List.length_pos_iff.2 hsome
        simp only [List.length_append] at hlen
        have hthree : "0\r\n".toList.length = 3 := rfl
        omega

/-- The client takes it for one. -/
theorem looseBody_of_completion (size : Int) (hsize : size ≤ 0) (as : List Arrival)
    (has : ∀ a ∈ as, a.IsChunk) (line stop : List (Tick Char)) (n : Nat)
    (hprompt : Prompt line) (hwhole : '\n' ∉ items line) (hsome : items line ≠ [])
    (hstop : stop = [.item '\n'] ∨ stop = [.silence])
    (hnumber : strtol 16 (items line) = n) (hfits : lengthOf as + n < 2147483648) (e : Ending) :
    ∃ data, LooseBody size
      ⟨as.flatMap Arrival.ticks ++ (line ++ (stop ++ completion n)), e⟩ data ⟨[], e⟩ := by
  have hne : stop ≠ [] := by
    rcases hstop with rfl | rfl <;> exact List.cons_ne_nil _ _
  have his (rest : List (Tick Char)) : IsLine '\n' line stop rest :=
    ⟨hprompt, hwhole, hstop.imp id Or.inl⟩
  -- the last line is this one, or the one behind the data
  have hend : ∃ d t, d.length = n ∧ LooseChunks ⟨line ++ (stop ++ completion n), e⟩ d t ∧
      (takeUntil '\n' t.ending t.ticks).got ≠ [] ∧
      strtol 16 (trim (takeUntil '\n' t.ending t.ticks).got) = 0 ∧
      (takeUntil '\n' t.ending t.ticks).rest = ⟨[], e⟩ := by
    rcases Nat.eq_zero_or_pos n with rfl | hpos
    · rcases takeUntil_of_isLine (his []) hne e with ⟨hgot, hbehind⟩
      refine ⟨[], _, rfl, LooseChunks.none _, ?_, ?_, hbehind⟩
      · exact fun h => hsome (hgot.symm.trans h)
      · exact (congrArg (fun l => strtol 16 (trim l)) hgot).trans
          ((strtol_trim 16 _).trans hnumber)
    · have hends : EndsWithItem ((List.replicate n 'x').map (Tick.item (α := Char))) := by
        cases n with
        | zero => exact absurd hpos (Nat.lt_irrefl 0)
        | succ n =>
            exact ⟨(List.replicate n 'x').map Tick.item, 'x', by
              rw [List.replicate_succ', List.map_append]
              rfl⟩
      have hcons := looseChunks_cons line stop ((List.replicate n 'x').map Tick.item)
        (crlf.map Tick.item) (("0\r\n".toList).map Tick.item) e (his _) hne hsome hends
        (by rw [items_map_item, List.length_replicate]; exact hnumber)
        (prompt_map_item _) ⟨[.item '\r'], '\n', rfl⟩ (items_map_item _)
        (LooseChunks.none _)
      refine ⟨List.replicate n 'x' ++ [], ⟨("0\r\n".toList).map Tick.item, e⟩, ?_, ?_, ?_, ?_, ?_⟩
      · rw [List.append_nil, List.length_replicate]
      · rw [items_map_item] at hcons
        rw [completion, if_neg (by omega)]
        exact hcons
      · exact fun h => by cases h
      · rfl
      · rfl
  rcases hend with ⟨d, t, hd, hloose, hlast, hzero, hbehind⟩
  rcases looseChunks_append as has (by omega) _ e hloose with ⟨data, hdata, hchunks⟩
  have htotal := addInt_zero_of_size data.length (by omega)
  refine ⟨data, ⟨t, hchunks, hlast, Int.le_of_eq hzero, fun _ => hzero, hbehind.symm⟩,
    fun hpos => absurd hsize (by omega), ?_⟩
  rw [htotal]
  omega

theorem connected_of_encoded (s : Source Char) (chunks : List Chunk) (last rest : Text)
    (h : items s.ticks = encode chunks last ++ rest) : s.connected = true := by
  rcases s with ⟨ticks, e⟩
  cases ticks with
  | nil =>
      have hnil := (List.append_eq_nil_iff.1 h.symm).1
      have := (List.append_eq_nil_iff.1 hnil).2
      exact absurd (List.append_eq_nil_iff.1 this).2 (by decide)
  | cons x ticks => rfl

theorem connected_of_loose (size : Int) (s s' : Source Char) (data : Text)
    (h : LooseBody size s data s') : s.connected = true := by
  rcases h.chunks with ⟨t, hchunks, hline, -⟩
  cases hchunks with
  | none => exact (line_shorter s hline).1
  | chunk _ n data _ hfirst => exact (line_shorter s hfirst).1

/-! ### The contract -/

/-- A body whose lengths agree is decoded, and where the lines of the sizes are good nothing
else is taken. -/
theorem contract_of_sizeLines (size : Int) (s : Source Char) (hfits : LengthsAgree size s)
    (hlines : SizeLinesHold size s) : ChunkedContract size s := by
  refine ⟨?_, ?_⟩
  · intro chunks last rest hbody hprompt hitems c k hc hcs hk
    -- the connection is there, as a body is to come
    have hconn := connected_of_encoded s chunks last rest hitems
    have hagree := hfits chunks last rest hbody hprompt hitems
    rcases looseBody_of_encoded size s chunks last rest hbody hprompt hitems hagree.1 hagree.2 with
      ⟨s', hloose, -⟩
    have hloop := chunkLoop_of_looseBody size s s' (dataOf chunks) hloose k hk
    rw [(writeToStream_chunked c s hconn k hc).1, (writeToStream_chunked c s hconn k hc).2, hcs]
    rw [hloop.1, hloop.2.2, addInt_zero_of_size _ hagree.1]
    exact ⟨rfl, rfl⟩
  · intro c k r hc hcs hres hr
    -- without a connection the answer is an error
    have hconn : s.connected = true := by
      by_contra hno
      simp only [writeToStream, if_neg hno] at hres
      have := Option.some.inj hres
      unfold errorNotConnected at this
      omega
    rw [(writeToStream_chunked c s hconn k hc).1, hcs] at hres
    rcases looseBody_of_chunkLoop size k s r hr hres with ⟨data, hloose, -⟩
    rcases hloose.chunks with ⟨t, hchunks, hline, hneg, hzero, hs'⟩
    rcases wellFormed_of_loose size s t data hchunks hlines hline hneg hzero with
      ⟨chunks, last, hbody, htext⟩
    rw [hs']
    exact ⟨_, htext, chunks, last, hbody, rfl⟩

theorem lengthsAgree_of_contract (size : Int) (s : Source Char) (h : ChunkedContract size s) :
    LengthsAgree size s := by
  intro chunks last rest hbody hprompt hitems
  have hconn := connected_of_encoded s chunks last rest hitems
  have hres := (h.1 chunks last rest hbody hprompt hitems
    { transferEncoding := .chunked, size := size } {} rfl rfl rfl).1
  rw [(writeToStream_chunked _ s hconn {} rfl).1] at hres
  -- What was returned is a sum of lengths, and the size it was compared with.
  rcases looseBody_of_chunkLoop size {} s _ (by omega) hres with ⟨data, hloose, hsum⟩
  have hlt := addInt_lt 0 data.length
  refine ⟨by omega, ?_⟩
  by_cases hsize : size ≤ 0
  · exact Or.inl hsize
  · exact Or.inr ((hloose.agrees (by omega)).symm.trans hsum.symm)

/-- Behind chunks and a line that is no size line, a server can go on against the contract. -/
theorem contract_fails_behind (size : Int) (hsize : size ≤ 0) (as : List Arrival)
    (has : ∀ a ∈ as, a.IsChunk) (line stop : List (Tick Char)) (hprompt : Prompt line)
    (hwhole : '\n' ∉ items line) (hsome : items line ≠ [])
    (hstop : stop = [.item '\n'] ∨ stop = [.silence]) (hnot : ¬Sizes size line stop)
    (hfits : lengthOf as + strtol 16 (items line) < 2147483648) (e : Ending) :
    ¬ChunkedContract size ⟨as.flatMap Arrival.ticks ++
      (line ++ (stop ++ completion (strtol 16 (items line)).toNat)), e⟩ := by
  intro hcontract
  have hnonneg : 0 ≤ strtol 16 (items line) := by
    by_contra hminus
    exact hnot (Or.inr ⟨hsize, by omega⟩)
  rcases looseBody_of_completion size hsize as has line stop (strtol 16 (items line)).toNat hprompt
    hwhole hsome hstop (by omega) (by omega) e with ⟨data, hloose⟩
  have hloop := chunkLoop_of_looseBody size _ _ data hloose {} rfl
  have hres := hloop.2.2
  rw [← (writeToStream_chunked { transferEncoding := .chunked, size := size } _
    (connected_of_loose size _ _ data hloose) {} rfl).1] at hres
  rcases hcontract.2 _ {} _ rfl rfl hres hloose.fits with ⟨consumed, hsplit, hwell⟩
  rw [hloop.2.1, items_nil, List.append_nil] at hsplit
  rw [← hsplit] at hwell
  exact not_wellFormed_of_completion as has line stop _ (by omega) hwhole hstop
    (fun hentry => hnot (Or.inl hentry)) hwell

/-- The client keeps to the contract of chunked bodies on a stream whose lengths agree and whose
lines of sizes are such. Lengths that do not agree break it, and behind every other line a
server can go on so that it is broken. -/
theorem chunkedContract_exact (size : Int) :
    (∀ s, LengthsAgree size s → SizeLinesHold size s → ChunkedContract size s) ∧
    (∀ s, ChunkedContract size s → LengthsAgree size s) ∧
    (size ≤ 0 → ∀ (as : List Arrival) (line stop : List (Tick Char)), (∀ a ∈ as, a.IsChunk) →
      Prompt line → '\n' ∉ items line → items line ≠ [] →
      stop = [.item '\n'] ∨ stop = [.silence] → ¬Sizes size line stop →
      lengthOf as + strtol 16 (items line) < 2147483648 →
        ∃ rest, ∀ e, ¬ChunkedContract size
          ⟨as.flatMap Arrival.ticks ++ (line ++ (stop ++ rest)), e⟩) := by
  refine ⟨contract_of_sizeLines size, lengthsAgree_of_contract size, ?_⟩
  intro hsize as line stop has hprompt hwhole hsome hstop hnot hfits
  exact ⟨_, contract_fails_behind size hsize as has line stop hprompt hwhole hsome hstop hnot
    hfits⟩

theorem sizeLine_head (line : Text) (n : Nat) (h : IsSizeLine line n) (t : Text) :
    ∃ c, (line ++ t).head? = some c ∧ isHexDigit c = true := by
  rcases h with ⟨digits, ext, rfl, hne, hall, -, -⟩
  cases digits with
  | nil => exact absurd rfl hne
  | cons c digits =>
      rw [List.all_cons, Bool.and_eq_true] at hall
      exact ⟨c, rfl, hall.1⟩

/-- A chunked body begins with a digit of its first size. -/
theorem wellFormed_head (text : Text) (h : WellFormed text) :
    ∃ c, text.head? = some c ∧ isHexDigit c = true := by
  rcases h with ⟨chunks, last, hbody, rfl⟩
  cases chunks with
  | nil => exact sizeLine_head last 0 hbody.2 crlf
  | cons c chunks =>
      rw [encode, List.flatMap_cons, List.append_assoc, List.append_assoc, List.append_assoc]
      exact sizeLine_head c.line _ (hbody.1 c List.mem_cons_self).1 _

/-- A line that is no size ends a body of nothing. -/
theorem junk_is_taken : ¬ ∀ size s, ChunkedContract size s := by
  intro h
  have hreject := (h (-1) ⟨"oops\r\n".toList.map Tick.item, .stays⟩).2
    { transferEncoding := .chunked, size := -1 } {} 0 rfl rfl (by decide) (by decide)
  rcases hreject with ⟨consumed, hsplit, hwell⟩
  have hall : consumed = "oops\r\n".toList := by
    have hnil : items (chunkLoop (-1) (("oops\r\n".toList.map Tick.item).length + 1) 0 0 {}
        ⟨"oops\r\n".toList.map Tick.item, .stays⟩).source.ticks = [] := by decide
    rw [hnil, List.append_nil, items_map_item] at hsplit
    exact hsplit.symm
  rcases wellFormed_head consumed hwell with ⟨c, hc, hhex⟩
  rw [hall] at hc
  rw [← Option.some.inj hc] at hhex
  exact absurd hhex (by decide)

end Http

end ArduinoBeken
