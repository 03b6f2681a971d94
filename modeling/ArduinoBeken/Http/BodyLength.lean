import ArduinoBeken.Http.ChunkedBody
import ArduinoBeken.Http.Head

/-!
# Where a Body Ends

HTTP/1.1 prescribes how the body of a response is delimited, by the method of
the request, the status and the two header fields (`Prescribed`). The client
goes by the fields alone: it does not look at the method or the status, so it
waits for a body where there is none, and it compares the chunks with a
`Content-Length` that does not count.

`delimits_iff` tells exactly when the body that `writeToStream` and `getString`
deliver is the one prescribed, whatever the client held before, however the
response arrives, as long as no silence interrupts it, and whatever follows it.

## Main definitions

* `Framing`, `Prescribed`: What is prescribed.
* `Carried`: A body as it is sent.
* `afterHead`: The client when the caller asks for the body.
* `Delivers`, `Delimits`: What is promised.
* `Fits`: When it holds.

## Theorems

* `afterHead_of_head`: What the head leaves.
* `delivers_sized`, `delivers_open`, `delivers_chunked`: The ways to delimit.
* `delimits_iff`: The promise, exactly.
-/

namespace ArduinoBeken

namespace Http

open Arrivals

/-! ### What is prescribed -/

/-- How a response tells the end of its body. -/
inductive Framing where
  | none
  | chunked
  | sized (n : Nat)
  | untilClose
deriving DecidableEq, Repr

/-- The responses without a body: to HEAD, 1xx, 204 and 304. -/
def NoBody (method : Text) (status : Nat) : Prop :=
  method = "HEAD".toList ∨ status / 100 = 1 ∨ status = 204 ∨ status = 304

instance (method : Text) (status : Nat) : Decidable (NoBody method status) :=
  inferInstanceAs (Decidable (_ ∨ _ ∨ _ ∨ _))

/-- The values of the `Content-Length` fields. -/
def contentLengths (h : Head) : List Text :=
  valuesOf "Content-Length".toList h.fields

/-- The values of the `Transfer-Encoding` fields. -/
def transferEncodings (h : Head) : List Text :=
  valuesOf "Transfer-Encoding".toList h.fields

/-- No transfer encoding is named but the identity. -/
def Uncoded (h : Head) : Prop :=
  ∀ v ∈ transferEncodings h, equalsIgnoreCase v "identity".toList = true

/-- The framing of a response to the method with the head. A head that names
another transfer encoding, or lengths that are no numbers or not the same, has
none. -/
inductive Prescribed (method : Text) (h : Head) : Framing → Prop where
  | none (hno : NoBody method h.status) : Prescribed method h .none
  | chunked (hbody : ¬ NoBody method h.status) (v : Text) (hone : transferEncodings h = [v])
      (hv : equalsIgnoreCase v "chunked".toList = true) : Prescribed method h .chunked
  | sized (n : Nat) (hbody : ¬ NoBody method h.status) (hplain : Uncoded h)
      (hgiven : contentLengths h ≠ [])
      (hn : ∀ v ∈ contentLengths h, v ≠ [] ∧ v.all isDigit = true ∧ scanDigits 10 0 v = n) :
      Prescribed method h (.sized n)
  | untilClose (hbody : ¬ NoBody method h.status) (hplain : Uncoded h)
      (hnone : contentLengths h = []) : Prescribed method h .untilClose

/-- The body as it is sent. -/
def Carried (framing : Framing) (ending : Ending) (body wire : Text) : Prop :=
  match framing with
  | .none => body = [] ∧ wire = []
  | .chunked => ∃ chunks last, IsChunkedBody chunks last ∧ body = dataOf chunks ∧
      wire = encode chunks last
  | .sized n => body.length = n ∧ wire = body
  | .untilClose => ending ≠ .stays ∧ wire = body

/-! ### What is promised -/

/-- The client and its connection when the caller asks for the body. An error
in the head has stopped the connection. -/
def afterHead (lib : TimeLibrary) (moment : Moment) (c : HTTPClient) (s : Source Char) :
    HTTPClient × Link :=
  let r := handleHeaderResponse lib moment c s
  (r.1, returnError (some r.2.1) r.2.2)

/-- Both functions give the body. -/
def Delivers (c : HTTPClient) (link : Link) (body : Text) : Prop :=
  (∀ k : Sink, k.Accepting → (writeToStream c link k).result = some (body.length : Int) ∧
    (writeToStream c link k).sink = k.took body) ∧
  (getString c link).2.2 = some body

/-- The body of a response is delivered, whatever the client held before,
however the response arrives without a silence, and whatever follows it. -/
def Delimits (h : Head) (framing : Framing) (ending : Ending) (body wire : Text) : Prop :=
  ∀ lib moment c ticks rest, Prompt ticks → (framing = .untilClose → rest = []) →
    items ticks = headText h.lines ++ (wire ++ rest) →
      Delivers (afterHead lib moment c ⟨ticks, ending⟩).1
        (afterHead lib moment c ⟨ticks, ending⟩).2 body

/-- The length fits an `int`; an empty body is not asked for on a connection
that is known to be closed; and
where there is no body, the fields say neither chunks nor a length nor nothing;
where there are chunks, no length is given, or theirs, or a negative one for
no chunks; and where the close ends the body, a poll notices it. -/
def Fits (h : Head) (framing : Framing) (ending : Ending) (body wire : Text) : Prop :=
  body.length < 2147483648 ∧ (wire = [] → ending ≠ .closed) ∧
  match framing with
  | .none => KnownCoding (codingOf h.fields) ∧ encodingFor (codingOf h.fields) = .identity ∧
      ¬ Wanting (sizeOf h.fields)
  | .chunked => sizeOf h.fields = -1 ∨ sizeOf h.fields = body.length ∨
      (sizeOf h.fields < 0 ∧ body = [])
  | .sized _ => True
  | .untilClose => ending = .closed

/-! ### What the head leaves -/

theorem connected_none_of_error (link : Link) (error : Int) (h : error < 0) :
    connected (returnError link error) = false := by
  unfold returnError
  by_cases hc : connected link = true
  · rw [if_pos ⟨h, hc⟩]
    rfl
  · rw [if_neg (fun hboth => hc hboth.2)]
    exact Bool.not_eq_true _ ▸ hc

theorem returnError_of_nonneg (link : Link) (code : Int) (h : 0 ≤ code) :
    returnError link code = link :=
  if_neg (fun hboth => absurd hboth.1 (Int.not_lt.2 h))

/-- The size and the encoding are those of the head, and the connection is left
behind it, or stopped if the encoding is not known. -/
theorem afterHead_of_head (lib : TimeLibrary) (moment : Moment) (c : HTTPClient) (h : Head)
    (hp : h.Plain) (ticks : List (Tick Char)) (ending : Ending) (hprompt : Prompt ticks)
    (rest : Text) (hitems : items ticks = headText h.lines ++ rest) :
    ∃ ticks', items ticks' = rest ∧ Prompt ticks' ∧ ticks' <:+ ticks ∧
      (afterHead lib moment c ⟨ticks, ending⟩).1.size = sizeOf h.fields ∧
      (KnownCoding (codingOf h.fields) →
        (afterHead lib moment c ⟨ticks, ending⟩).1.transferEncoding =
            encodingFor (codingOf h.fields) ∧
          (afterHead lib moment c ⟨ticks, ending⟩).2 = some ⟨ticks', ending⟩) ∧
      (¬ KnownCoding (codingOf h.fields) →
        connected (afterHead lib moment c ⟨ticks, ending⟩).2 = false) := by
  rcases handleHeaderResponse_of_head lib moment c h hp ⟨ticks, ending⟩ hprompt rest hitems with
    ⟨ticks', hrest, hp', hsuf, hleft, hsize, hknown, hunknown⟩
  refine ⟨ticks', hrest, hp', hsuf, hsize, ?_, ?_⟩
  · intro hk
    refine ⟨(hknown hk).1, ?_⟩
    have hnonneg : 0 ≤ clampLong (h.status : Int) := by
      unfold clampLong
      omega
    simp only [afterHead, hleft, (hknown hk).2]
    exact returnError_of_nonneg _ _ hnonneg
  · intro hk
    simp only [afterHead, hunknown hk]
    exact connected_none_of_error _ _ (by decide)

/-! ### The ways to delimit -/

theorem writeToStream_unconnected (c : HTTPClient) (link : Link) (k : Sink)
    (h : connected link = false) :
    (writeToStream c link k).result = some errorNotConnected := by
  cases link with
  | none => rfl
  | some s =>
      have hs : ¬ s.connected = true := fun hc => Bool.false_ne_true (h.symm.trans hc)
      simp only [writeToStream, if_neg hs]

/-- A body without chunks is one block. -/
theorem writeToStream_identity (c : HTTPClient) (s : Source Char) (hs : s.connected = true)
    (k : Sink) (hc : c.transferEncoding = .identity) :
    (writeToStream c (some s) k).result = (writeToStreamDataBlock c.size k s).2.2 ∧
      (writeToStream c (some s) k).sink = (writeToStreamDataBlock c.size k s).1 := by
  simp only [writeToStream, hs, if_true, hc]
  exact bodyEnd_result _ _ _ _ _

theorem getString_sated (c : HTTPClient) (link : Link) (h : ¬ Wanting c.size) :
    getString c link = (c, link, some []) :=
  if_neg h

/-- `getString` gives what `writeToStream` gives, or nothing without asking. -/
theorem delivers_of_writeToStream (c : HTTPClient) (link : Link) (body : Text)
    (hwrite : ∀ k : Sink, k.Accepting →
      (writeToStream c link k).result = some (body.length : Int) ∧
        (writeToStream c link k).sink = k.took body)
    (hnothing : ¬ Wanting c.size → body = []) : Delivers c link body := by
  refine ⟨hwrite, ?_⟩
  by_cases hwant : Wanting c.size
  · have hyes : 0 < c.size ∨ c.size = -1 := hwant
    simp only [getString, if_pos hyes, (hwrite {} rfl).1, (hwrite {} rfl).2, Option.map_some,
      Sink.took, List.nil_append]
  · rw [getString_sated c link hwant, hnothing hwant]

theorem delivers_nothing (c : HTTPClient) (s : Source Char) (hs : s.connected = true)
    (hc : c.transferEncoding = .identity) (hsize : ¬ Wanting c.size) :
    Delivers c (some s) [] := by
  refine delivers_of_writeToStream c (some s) [] ?_ (fun _ => rfl)
  intro k _
  rw [(writeToStream_identity c s hs k hc).1, (writeToStream_identity c s hs k hc).2,
    dataBlock_nothing k s c.size hsize, Sink.took_nil]
  exact ⟨rfl, rfl⟩

theorem delivers_sized (c : HTTPClient) (ticks : List (Tick Char)) (ending : Ending)
    (hs : (⟨ticks, ending⟩ : Source Char).connected = true)
    (hc : c.transferEncoding = .identity) (body rest : Text) (hsize : c.size = body.length)
    (hlen : body.length < 2147483648) (hitems : items ticks = body ++ rest) :
    Delivers c (some ⟨ticks, ending⟩) body := by
  refine delivers_of_writeToStream c _ body ?_ ?_
  · intro k hk
    rw [(writeToStream_identity c _ hs k hc).1, (writeToStream_identity c _ hs k hc).2, hsize,
      dataBlock_sized k hk ending ticks body rest hlen hitems]
    exact ⟨rfl, rfl⟩
  · intro hno
    rw [hsize] at hno
    unfold Wanting at hno
    exact List.length_eq_zero_iff.1 (by omega)

theorem delivers_open (c : HTTPClient) (ticks : List (Tick Char))
    (hs : (⟨ticks, .closed⟩ : Source Char).connected = true)
    (hc : c.transferEncoding = .identity) (hsize : c.size = -1)
    (hlen : (items ticks).length < 2147483648) :
    Delivers c (some ⟨ticks, .closed⟩) (items ticks) := by
  refine delivers_of_writeToStream c _ (items ticks) ?_ ?_
  · intro k hk
    rw [(writeToStream_identity c _ hs k hc).1, (writeToStream_identity c _ hs k hc).2, hsize,
      dataBlock_open k hk .closed ticks, if_pos rfl, addInt_zero_of_size _ hlen]
    exact ⟨rfl, rfl⟩
  · exact fun hno => absurd (Or.inr hsize) hno

theorem delivers_chunked (c : HTTPClient) (s : Source Char) (hc : c.transferEncoding = .chunked)
    (chunks : List Chunk) (last rest : Text) (hbody : IsChunkedBody chunks last)
    (hprompt : Prompt s.ticks) (hitems : items s.ticks = encode chunks last ++ rest)
    (hlen : (dataOf chunks).length < 2147483648)
    (hsize : c.size = -1 ∨ c.size = (dataOf chunks).length ∨ (c.size < 0 ∧ dataOf chunks = [])) :
    Delivers c (some s) (dataOf chunks) := by
  have hs := connected_of_encoded s chunks last rest hitems
  rcases looseBody_of_encoded c.size s chunks last rest hbody hprompt hitems hlen
    (by omega) with ⟨s', hloose, -⟩
  refine delivers_of_writeToStream c _ (dataOf chunks) ?_ ?_
  · intro k hk
    have hloop := chunkLoop_of_looseBody c.size s s' (dataOf chunks) hloose k hk
    rw [(writeToStream_chunked c s hs k hc).1, (writeToStream_chunked c s hs k hc).2, hloop.1,
      hloop.2.2, addInt_zero_of_size _ hlen]
    exact ⟨rfl, rfl⟩
  · intro hno
    unfold Wanting at hno
    rcases hsize with h | h | h
    · omega
    · exact List.length_eq_zero_iff.1 (by omega)
    · exact h.2

/-! ### What follows from a delivery -/

theorem dataBlock_result_lt (size : Int) (k : Sink) (s : Source Char) (r : Int)
    (h : (writeToStreamDataBlock size k s).2.2 = some r) : r < 2147483648 := by
  rcases s with ⟨ticks, e⟩
  simp only [writeToStreamDataBlock] at h
  cases hend : (copyLoop (buffSizeFor size) (ticks.length + 1) size k 0 ⟨ticks, e⟩).2.2 with
  | done w =>
      rcases copyLoop_done (buffSizeFor size) (buffSizeFor_pos size) e (ticks.length + 1) size k 0
        ticks (Nat.lt_succ_self _) rfl w hend with ⟨s, -, -, -, -, -, hw, -⟩
      -- what was copied is counted in an `int`
      have hlt := addInt_lt 0 s.length
      simp only [hend] at h
      by_cases hne : 0 < size ∧ size ≠ w
      · rw [if_pos hne] at h
        have hr := Option.some.inj h
        unfold errorStreamWrite at hr
        omega
      · rw [if_neg hne] at h
        have hr := Option.some.inj h
        omega
  | refused =>
      simp only [hend] at h
      have hr := Option.some.inj h
      unfold errorStreamWrite at hr
      omega
  | never =>
      simp only [hend] at h
      exact absurd h (fun hno => by cases hno)

/-- What is returned is an `int`. -/
theorem writeToStream_result_lt (c : HTTPClient) (link : Link) (k : Sink) (r : Int)
    (h : (writeToStream c link k).result = some r) : r < 2147483648 := by
  by_cases hneg : r < 0
  · omega
  -- an error is negative, and a length is a sum clamped to 31 bits
  cases hconn : connected link with
  | false =>
      rw [writeToStream_unconnected c link k hconn] at h
      have hr := Option.some.inj h
      unfold errorNotConnected at hr
      omega
  | true =>
      cases link with
      | none => exact absurd hconn Bool.false_ne_true
      | some s =>
          -- the sum of one block, or of the chunks
          cases hte : c.transferEncoding with
          | identity =>
              rw [(writeToStream_identity c s hconn k hte).1] at h
              exact dataBlock_result_lt c.size k s r h
          | chunked =>
              rw [(writeToStream_chunked c s hconn k hte).1] at h
              rcases looseBody_of_chunkLoop c.size k s r (by omega) h with ⟨data, -, hsum⟩
              have hlt := addInt_lt 0 data.length
              omega

/-- A delivery has a length that fits, and takes place on an open connection. -/
theorem open_of_delivers (c : HTTPClient) (link : Link) (body : Text)
    (h : Delivers c link body) : body.length < 2147483648 ∧ connected link = true := by
  have hres := (h.1 {} rfl).1
  have hlt := writeToStream_result_lt c link {} _ hres
  refine ⟨by omega, ?_⟩
  by_contra hno
  rw [writeToStream_unconnected c link {} (Bool.not_eq_true _ ▸ hno)] at hres
  have hr := Option.some.inj hres
  unfold errorNotConnected at hr
  omega

/-- A stream with nothing more to come ends no block of unknown size, and no
block of a known one without an error. -/
theorem sated_of_delivers (c : HTTPClient) (e : Ending) (hc : c.transferEncoding = .identity)
    (h : Delivers c (some ⟨[], e⟩) []) : ¬ Wanting c.size := by
  intro hwant
  have hconn : (⟨[], e⟩ : Source Char).connected = true := (open_of_delivers c _ [] h).2
  have he : e ≠ .closed := of_decide_eq_true hconn
  have hres := (h.1 {} rfl).1
  have hdry := copyLoop_dry (buffSizeFor c.size) 0 c.size {} 0 e hwant
  rw [if_neg he] at hdry
  rw [(writeToStream_identity c _ hconn {} hc).1] at hres
  simp only [writeToStreamDataBlock, List.length_nil, Nat.zero_add, hdry] at hres
  exact absurd hres (fun hno => by cases hno)

/-- A stream with nothing more to come has no chunks. -/
theorem unchunked_of_delivers (c : HTTPClient) (e : Ending)
    (h : Delivers c (some ⟨[], e⟩) []) : c.transferEncoding = .identity := by
  have hconn : (⟨[], e⟩ : Source Char).connected = true := (open_of_delivers c _ [] h).2
  cases hte : c.transferEncoding with
  | identity => rfl
  | chunked =>
      have hres := (h.1 {} rfl).1
      rw [(writeToStream_chunked c _ hconn {} hte).1, List.length_nil, Nat.zero_add, chunkLoop,
        if_pos hconn] at hres
      simp only [takeUntil, if_true] at hres
      have hr := Option.some.inj hres
      unfold errorReadTimeout at hr
      omega

theorem size_of_delivers (c : HTTPClient) (s : Source Char) (hc : c.transferEncoding = .chunked)
    (body : Text) (h : Delivers c (some s) body) :
    c.size = -1 ∨ c.size = body.length ∨ (c.size < 0 ∧ body = []) := by
  have hconn : s.connected = true := (open_of_delivers c _ body h).2
  have hres := (h.1 {} rfl).1
  rw [(writeToStream_chunked c s hconn {} hc).1] at hres
  rcases looseBody_of_chunkLoop c.size {} s _ (by omega) hres with ⟨data, hloose, hsum⟩
  by_cases hwant : Wanting c.size
  · rcases hwant with hpos | hone
    · exact Or.inr (Or.inl ((hloose.agrees hpos).symm.trans hsum.symm))
    · exact Or.inl hone
  · -- Without a size to wait for, `getString` gives the empty text.
    have hget := h.2
    rw [getString_sated c _ hwant] at hget
    have hnil : body = [] := (Option.some.inj hget).symm
    rw [hnil]
    unfold Wanting at hwant
    rw [List.length_nil]
    by_cases hzero : c.size = 0
    · exact Or.inr (Or.inl hzero)
    · exact Or.inr (Or.inr ⟨by omega, rfl⟩)

/-- A block of unknown size is delivered only when the close is noticed. -/
theorem closed_of_delivers (c : HTTPClient) (ticks : List (Tick Char)) (e : Ending)
    (hc : c.transferEncoding = .identity) (hsize : c.size = -1) (body : Text)
    (h : Delivers c (some ⟨ticks, e⟩) body) : e = .closed := by
  have hconn : (⟨ticks, e⟩ : Source Char).connected = true := (open_of_delivers c _ body h).2
  have hres := (h.1 {} rfl).1
  rw [(writeToStream_identity c _ hconn {} hc).1, hsize,
    dataBlock_open {} rfl e ticks] at hres
  by_contra he
  rw [if_neg he] at hres
  exact absurd hres (fun hno => nomatch hno)

/-! ### The promise, exactly -/

theorem coding_of_uncoded (h : Head) (hu : Uncoded h) :
    KnownCoding (codingOf h.fields) ∧ encodingFor (codingOf h.fields) = .identity := by
  unfold codingOf
  cases hlast : (valuesOf "Transfer-Encoding".toList h.fields).getLast? with
  | none => exact ⟨Or.inl rfl, rfl⟩
  | some v =>
      have hid := hu v (List.mem_of_getLast? hlast)
      refine ⟨Or.inr (Or.inr hid), ?_⟩
      have hlower : toLowerCase v = toLowerCase "identity".toList := beq_iff_eq.1 hid
      have hch : equalsIgnoreCase v "chunked".toList = false := by
        rw [equalsIgnoreCase, hlower]
        rfl
      rw [Option.getD_some, encodingFor, hch]
      rfl

theorem size_of_lengths (h : Head) (n : Nat) (hgiven : contentLengths h ≠ [])
    (hn : ∀ v ∈ contentLengths h, v ≠ [] ∧ v.all isDigit = true ∧ scanDigits 10 0 v = n) :
    sizeOf h.fields = clampLong n := by
  unfold sizeOf
  cases hlast : (valuesOf "Content-Length".toList h.fields).getLast? with
  | none => exact absurd (List.getLast?_eq_none_iff.1 hlast) hgiven
  | some v =>
      rcases hn v (List.mem_of_getLast? hlast) with ⟨hne, hall, hv⟩
      rw [← hv]
      exact strtol_of_digits v hne hall

/-- A suffix of a stream that comes without a pause comes without one. -/
theorem eq_nil_of_suffix (s : Text) (ticks : List (Tick Char))
    (hsuf : ticks <:+ s.map Tick.item) (hitems : items ticks = []) : ticks = [] := by
  cases ticks with
  | nil => rfl
  | cons x ticks =>
      rcases List.mem_map.1 (hsuf.subset List.mem_cons_self) with ⟨a, -, rfl⟩
      exact absurd hitems (List.cons_ne_nil _ _)

/-- Where the condition holds, the body is delivered. -/
theorem delimits_of_fits (method : Text) (h : Head) (hp : h.Plain) (framing : Framing)
    (hframing : Prescribed method h framing) (ending : Ending) (body wire : Text)
    (hcarried : Carried framing ending body wire) (hfits : Fits h framing ending body wire) :
    Delimits h framing ending body wire := by
  intro lib moment c ticks rest hprompt hrest hitems
  rcases afterHead_of_head lib moment c h hp ticks ending hprompt (wire ++ rest) hitems with
    ⟨ticks', hticks', hp', -, hsize, hknown, -⟩
  rcases hfits with ⟨hlen, hopen, hcond⟩
  -- The connection is open: something is still to come, or it is not closed.
  have hconn : (wire ≠ [] ∨ ending ≠ .closed) →
      (⟨ticks', ending⟩ : Source Char).connected = true := by
    intro hor
    cases ticks' with
    | cons x ticks' => rfl
    | nil =>
        rcases hor with hne | hne
        · exact absurd (List.append_eq_nil_iff.1 hticks'.symm).1 hne
        · exact decide_eq_true hne
  have hconn' : (⟨ticks', ending⟩ : Source Char).connected = true := by
    refine hconn ?_
    by_cases hw : wire = []
    · exact Or.inr (hopen hw)
    · exact Or.inl hw
  generalize afterHead lib moment c ⟨ticks, ending⟩ = after at hsize hknown ⊢
  -- one case for each framing the method and the head prescribe
  cases hframing with
  -- no body: both sides find nothing to read
  | none hno =>
      rcases hknown hcond.1 with ⟨hte, hlink⟩
      rw [hlink, hcarried.1]
      exact delivers_nothing after.1 _ hconn' (hte.trans hcond.2.1) (hsize ▸ hcond.2.2)
  | chunked hbody v hone hv =>
      have hcoding : codingOf h.fields = v := by
        have hone' : valuesOf "Transfer-Encoding".toList h.fields = [v] := hone
        rw [codingOf, hone']
        rfl
      rcases hknown (by rw [hcoding]; exact Or.inr (Or.inl hv)) with ⟨hte, hlink⟩
      rw [hcoding, encodingFor, if_pos hv] at hte
      rcases hcarried with ⟨chunks, last, hchunks, rfl, rfl⟩
      rw [hlink]
      exact delivers_chunked after.1 _ hte chunks last rest hchunks hp' hticks' hlen
        (hsize ▸ hcond)
  | sized n hbody hplain hgiven hn =>
      have hcoding := coding_of_uncoded h hplain
      rcases hknown hcoding.1 with ⟨hte, hlink⟩
      rcases hcarried with ⟨rfl, rfl⟩
      rw [hlink]
      rw [size_of_lengths h _ hgiven hn, clampLong_of_fits _ hlen] at hsize
      exact delivers_sized after.1 ticks' ending hconn' (hte.trans hcoding.2) wire rest hsize hlen
        hticks'
  -- no length: the body ends with the connection
  | untilClose hbody hplain hnone =>
      have hcoding := coding_of_uncoded h hplain
      rcases hknown hcoding.1 with ⟨hte, hlink⟩
      rcases hcarried with ⟨-, rfl⟩
      have hclosed : ending = .closed := hcond
      rw [hclosed] at hlink hconn'
      have hminus : sizeOf h.fields = -1 := by
        have hnone' : valuesOf "Content-Length".toList h.fields = [] := hnone
        rw [sizeOf, hnone']
        rfl
      rw [hrest rfl, List.append_nil] at hticks'
      rw [hlink, ← hticks']
      exact delivers_open after.1 ticks' hconn' (hte.trans hcoding.2) (hsize.trans hminus)
        (hticks' ▸ hlen)

/-- What follows from one response that arrives at once and is followed by
nothing. -/
theorem fits_of_delimits (method : Text) (h : Head) (hp : h.Plain) (framing : Framing)
    (hframing : Prescribed method h framing) (ending : Ending) (body wire : Text)
    (hcarried : Carried framing ending body wire) (hall : Delimits h framing ending body wire) :
    Fits h framing ending body wire := by
  -- The law covers every arrival; one without any pause is enough here.
  let lib : TimeLibrary := ⟨false, fun _ => none⟩
  let moment : Moment := ⟨0, fun _ => 0⟩
  let ticks := (headText h.lines ++ (wire ++ [])).map Tick.item
  have hitems : items ticks = headText h.lines ++ (wire ++ []) := items_map_item _
  have hdel := hall lib moment {} ticks [] (prompt_map_item _) (fun _ => rfl) hitems
  rcases afterHead_of_head lib moment {} h hp ticks ending (prompt_map_item _) (wire ++ []) hitems
    with ⟨ticks', hticks', hp', hsuf, hsize, hknown, hunknown⟩
  rw [List.append_nil] at hticks'
  rcases open_of_delivers _ _ body hdel with ⟨hlen, hconn⟩
  -- With an unknown coding the connection is not kept, which the law refuses.
  have hk : KnownCoding (codingOf h.fields) := by
    by_contra hk
    exact absurd (hconn.symm.trans (hunknown hk)) (fun hno => nomatch hno)
  rcases hknown hk with ⟨hte, hlink⟩
  have hempty : wire = [] → ticks' = [] :=
    fun hw => eq_nil_of_suffix _ ticks' hsuf (hticks'.trans hw)
  generalize afterHead lib moment {} ⟨ticks, ending⟩ = after at hdel hconn hsize hte hlink
  rw [hlink] at hdel hconn
  refine ⟨hlen, ?_, ?_⟩
  · intro hw
    rw [hempty hw] at hconn
    exact of_decide_eq_true hconn
  -- Each framing says what the head must have left in the size and the coding.
  cases hframing with
  | none hno =>
      rcases hcarried with ⟨rfl, rfl⟩
      rw [hempty rfl] at hdel
      have hid := unchunked_of_delivers after.1 ending hdel
      exact ⟨hk, hte ▸ hid, hsize ▸ sated_of_delivers after.1 ending hid hdel⟩
  | chunked hbody v hone hv =>
      have hcoding : codingOf h.fields = v := by
        have hone' : valuesOf "Transfer-Encoding".toList h.fields = [v] := hone
        rw [codingOf, hone']
        rfl
      rw [hcoding, encodingFor, if_pos hv] at hte
      have hs := size_of_delivers after.1 _ hte body hdel
      rw [hsize] at hs
      exact hs
  | sized n hbody hplain hgiven hn => trivial
  | untilClose hbody hplain hnone =>
      have hminus : sizeOf h.fields = -1 := by
        have hnone' : valuesOf "Content-Length".toList h.fields = [] := hnone
        rw [sizeOf, hnone']
        rfl
      exact closed_of_delivers after.1 ticks' ending (hte.trans (coding_of_uncoded h hplain).2)
        (hsize.trans hminus) body hdel

/-- The body that is prescribed is delivered exactly when the condition
holds. -/
theorem delimits_iff (method : Text) (h : Head) (hp : h.Plain) (framing : Framing)
    (hframing : Prescribed method h framing) (ending : Ending) (body wire : Text)
    (hcarried : Carried framing ending body wire) :
    Delimits h framing ending body wire ↔ Fits h framing ending body wire :=
  ⟨fits_of_delimits method h hp framing hframing ending body wire hcarried,
    delimits_of_fits method h hp framing hframing ending body wire hcarried⟩

/-- The head of a page of five characters. -/
def pageHead : Head :=
  ⟨"HTTP/1.1".toList, "200".toList, "OK".toList, [⟨"Content-Length".toList, " 5".toList⟩]⟩

theorem pageHead_plain : pageHead.Plain := by decide

theorem delimits_iff_page :
    Delimits pageHead (.sized 5) .stays "hello".toList "hello".toList ↔
      Fits pageHead (.sized 5) .stays "hello".toList "hello".toList :=
  delimits_iff "GET".toList pageHead pageHead_plain (.sized 5)
    (.sized 5 (by decide) (fun v hv => nomatch hv) (by decide) (by
      intro v hv
      rw [List.mem_singleton.1 hv]
      decide)) .stays "hello".toList "hello".toList ⟨rfl, rfl⟩

/-- The answer to HEAD gives the length of the page, and the client waits for
the page. -/
theorem head_waits_for_page : ¬ ∀ method h, Head.Plain h → ∀ framing, Prescribed method h framing →
    ∀ ending body wire, Carried framing ending body wire →
      Delimits h framing ending body wire := by
  intro hall
  have hdel := hall "HEAD".toList pageHead pageHead_plain .none (.none (Or.inl rfl)) .stays [] []
    ⟨rfl, rfl⟩
  have hfits := fits_of_delimits "HEAD".toList pageHead pageHead_plain .none (.none (Or.inl rfl))
    .stays [] [] ⟨rfl, rfl⟩ hdel
  exact hfits.2.2.2.2 (by decide)

end Http

end ArduinoBeken
