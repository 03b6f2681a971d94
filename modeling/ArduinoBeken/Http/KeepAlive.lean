import ArduinoBeken.Http.BodyLength
import ArduinoBeken.Http.CookieLaw
import ArduinoBeken.Library.Run

/-!
# The Boundary between Responses

On a connection that is kept, the response to a request begins where the one
before it ends. A client that reads a body leaves the connection at the end of
what it read: behind the last byte of a body of a known length, but before the
trailer and the line end that follow the last chunk; and a response that is
skipped leaves its body. What is left over is thrown away by `connect`, which
takes what has arrived and no more.

So the next response is parsed from its first byte exactly when nothing of the
earlier one is still to come at that moment (`keepAlive_iff`).

## Main definitions

* `Payload`: A body as it is sent, with what follows it.
* `Use`: What the caller does with a response.
* `Exchange`: A response, its use, and when it arrives.
* `exchange`: The step of the system, from one request to the next.
* `AtBoundary`: What is promised of each response.

## Theorems

* `read_plain`, `read_chunked`: What a full read leaves.
* `read_of_prompt`: A response that comes without a silence is used up to what
  its use leaves.
* `start_of_exchange`: What is late is parsed before the next response.
* `clears_iff`: The next request finds the connection clear unless some of
  this response is late.
* `keepAlive_iff`: The boundary along a run.
-/

namespace ArduinoBeken

namespace Http

open Arrivals

/-- A body as it is sent: of a known length, or in chunks, with the trailer and
the line end behind them. -/
inductive Payload where
  | plain (text : Text)
  | chunked (chunks : List Chunk) (last tail : Text)
deriving DecidableEq, Repr

/-- What the caller does with a response: the body is read, or the response is
skipped, by a redirect to a path or to a whole URL of the same host, or by
`end`. -/
inductive Use where
  | writeToStream (k : Sink)
  | getString
  | followPath
  | followUrl
  | finish
deriving DecidableEq, Repr

namespace Payload

/-- A body as it is sent. -/
def wire : Payload → Text
  | plain text => text
  | chunked chunks last tail => encode chunks last ++ tail

/-- What a body carries. -/
def data : Payload → Text
  | plain text => text
  | chunked chunks _ _ => dataOf chunks

/-- What a reader takes of the body. -/
def read : Payload → Text
  | plain text => text
  | chunked chunks last _ => encode chunks last

/-- What is left of the body when it was read. -/
def afterRead : Payload → Text
  | plain _ => []
  | chunked _ _ tail => tail

theorem wire_eq (p : Payload) : p.wire = p.read ++ p.afterRead := by
  cases p with
  | plain text => exact (List.append_nil text).symm
  | chunked chunks last tail => rfl

/-- The fields of the head are those of the body, and agree with its length. -/
def Described (h : Head) (p : Payload) : Prop :=
  p.data.length < 2147483648 ∧
  match p with
  | plain text => encodingFor (codingOf h.fields) = .identity ∧ sizeOf h.fields = text.length
  | chunked chunks last _ => encodingFor (codingOf h.fields) = .chunked ∧
      IsChunkedBody chunks last ∧
      (sizeOf h.fields ≤ 0 ∨ sizeOf h.fields = (dataOf chunks).length)

end Payload

namespace Use

/-- The use reads the body whole. Without a size to wait for, `getString` reads
nothing. -/
def Reads (h : Head) (p : Payload) : Use → Prop
  | writeToStream k => k.Accepting ∧ p.Described h
  | getString => (Wanting (sizeOf h.fields) ∨ p = .plain []) ∧ p.Described h
  | _ => True

/-- What the use takes of the body. -/
def taken (p : Payload) : Use → Text
  | writeToStream _ => p.read
  | getString => p.read
  | _ => []

/-- What the use leaves of the body. -/
def unread (p : Payload) : Use → Text
  | writeToStream _ => p.afterRead
  | getString => p.afterRead
  | _ => p.wire

theorem wire_eq (p : Payload) (u : Use) : p.wire = u.taken p ++ u.unread p := by
  cases u with
  | writeToStream k => exact p.wire_eq
  | getString => exact p.wire_eq
  | followPath => rfl
  | followUrl => rfl
  | finish => rfl

end Use

/-- A response with the request it answers. Its ticks are what arrives before
the next request is made, and the text behind them is what comes later than
that, so no read can have waited for it. A pause that no read meets is a wait,
however long it is. -/
structure Exchange where
  http : HTTPClient
  moment : Moment
  head : Head
  payload : Payload
  use : Use
  ticks : List (Tick Char)
  late : Text
  plain : head.Plain
  known : KnownCoding (codingOf head.fields)
  arrives : items ticks ++ late = headText head.lines ++ payload.wire
  unread : late <:+ use.unread payload
  reads : use.Reads head payload

/-! ### The system -/

/-- The connection on which a request is sent: what had arrived on the old one
is thrown away, or a new one is opened. -/
def connectLink (link : Link) : Source Char :=
  match link with
  | some s => if s.connected then s.discard else ⟨[], .stays⟩
  | none => ⟨[], .stays⟩

/-- The connection when the head of the response is read. -/
def Exchange.start (e : Exchange) (link : Link) : Source Char :=
  (connectLink link).extend e.ticks

/-- The client and its connection when the response is used. -/
def Exchange.answered (lib : TimeLibrary) (e : Exchange) (link : Link) : HTTPClient × Link :=
  afterHead lib e.moment e.http (e.start link)

/-- The connection after the use. -/
def Use.apply (u : Use) (c : HTTPClient) (link : Link) : Link :=
  match u with
  | .writeToStream k => (Http.writeToStream c link k).link
  | .getString => (Http.getString c link).2.1
  | .followPath => link
  | .followUrl => (HTTPClient.disconnect { c with canReuse := true } link true).2
  | .finish => (c.disconnect link false).2

/-- The connection when the next request is made: all that was in time has
arrived, and the rest is still to come. -/
def settle (link : Link) (late : Text) : Link :=
  link.map fun s => ⟨(items s.ticks).map Tick.item ++ Tick.wait :: late.map Tick.item, s.ending⟩

/-- From one request to the next. -/
def exchange (lib : TimeLibrary) (link : Link) (e : Exchange) : Link :=
  settle (e.use.apply (e.answered lib link).1 (e.answered lib link).2) e.late

/-- What the next request finds is none of an earlier response. -/
def Clear (link : Link) : Prop :=
  ∀ s, link = some s → items s.discard.ticks = [] ∧ Prompt s.discard.ticks

/-- The response is parsed from its first byte; if no silence interrupts it, its
code is that of its head and it is used up to what its use leaves; and the next
request finds none of it. -/
structure AtBoundary (lib : TimeLibrary) (link : Link) (e : Exchange) : Prop where
  starts : items (e.start link).ticks = items e.ticks
  read : Prompt e.ticks →
    (handleHeaderResponse lib e.moment e.http (e.start link)).2.2 = clampLong e.head.status ∧
      ∀ s, e.use.apply (e.answered lib link).1 (e.answered lib link).2 = some s →
        items s.ticks ++ e.late = e.use.unread e.payload
  clears : Clear (exchange lib link e)

/-- The connection is kept for another request. -/
def Kept (lib : TimeLibrary) (link : Link) (e : Exchange) : Prop :=
  exchange lib link e ≠ none

instance (lib : TimeLibrary) (link : Link) (e : Exchange) : Decidable (Kept lib link e) :=
  inferInstanceAs (Decidable (_ ≠ _))

/-! ### What a use leaves -/

/-- A body that ends leaves the connection where the reading stopped, or
stops it. -/
theorem bodyEnd_link (c : HTTPClient) (k : Sink) (t : Source Char) (complete : Bool)
    (result : Option Int) (s : Source Char) (h : (bodyEnd c k t complete result).link = some s) :
    s = t := by
  cases result with
  | none => exact (Option.some.inj h).symm
  | some r =>
      unfold bodyEnd at h
      by_cases hr : r < 0 ∧ complete = false
      · simp only [if_pos hr] at h
        unfold returnError at h
        split at h
        · exact absurd h (fun hno => nomatch hno)
        · exact (Option.some.inj h).symm
      · simp only [if_neg hr] at h
        unfold HTTPClient.disconnect at h
        split at h
        · split at h
          · exact (Option.some.inj h).symm
          · exact absurd h (fun hno => nomatch hno)
        · exact (Option.some.inj h).symm

/-- A client that disconnects keeps the connection as it is, or stops it. -/
theorem disconnect_link (c : HTTPClient) (link : Link) (preserveClient : Bool) (s : Source Char)
    (h : (c.disconnect link preserveClient).2 = some s) : link = some s := by
  unfold HTTPClient.disconnect at h
  split at h
  · split at h
    · exact h
    · split at h
      · exact absurd h (fun hno => nomatch hno)
      · split at h <;> exact absurd h (fun hno => nomatch hno)
  · exact h

/-- A body of a known length that was read leaves what follows it. -/
theorem read_plain (c : HTTPClient) (k : Sink) (hk : k.Accepting) (ticks : List (Tick Char))
    (ending : Ending) (hc : c.transferEncoding = .identity) (text rest : Text)
    (hsize : c.size = text.length) (hlen : text.length < 2147483648)
    (hitems : items ticks = text ++ rest) (s : Source Char)
    (h : (writeToStream c (some ⟨ticks, ending⟩) k).link = some s) : items s.ticks = rest := by
  by_cases hconn : (⟨ticks, ending⟩ : Source Char).connected = true
  · have hblock := dataBlock_sized k hk ending ticks text rest hlen hitems
    simp only [writeToStream, if_pos hconn, hc, hsize, hblock] at h
    rw [bodyEnd_link _ _ _ _ _ s h, items_afterItems, hitems, List.drop_left]
  · simp only [writeToStream, if_neg hconn] at h
    rw [← Option.some.inj h]
    -- Nothing was sent at all.
    cases ticks with
    | nil => exact (List.append_eq_nil_iff.1 hitems.symm).2.symm
    | cons x ticks => exact absurd rfl hconn

/-- A chunked body that was read leaves what follows its last line. -/
theorem read_chunked (c : HTTPClient) (k : Sink) (hk : k.Accepting) (t : Source Char)
    (hc : c.transferEncoding = .chunked) (chunks : List Chunk) (last rest : Text)
    (hbody : IsChunkedBody chunks last) (hlen : (dataOf chunks).length < 2147483648)
    (hsize : c.size ≤ 0 ∨ c.size = (dataOf chunks).length) (hprompt : Prompt t.ticks)
    (hitems : items t.ticks = encode chunks last ++ rest) (s : Source Char)
    (h : (writeToStream c (some t) k).link = some s) : items s.ticks = rest := by
  have hconn := connected_of_encoded t chunks last rest hitems
  rcases looseBody_of_encoded c.size t chunks last rest hbody hprompt hitems hlen hsize with
    ⟨t', hloose, hrest⟩
  have hloop := chunkLoop_of_looseBody c.size t t' (dataOf chunks) hloose k hk
  simp only [writeToStream, if_pos hconn, hc] at h
  rw [bodyEnd_link _ _ _ _ _ s h, hloop.2.1, hrest]

/-! ### One response -/

/-- The part of the response that comes in time: its head, what its use takes,
and some of what its use leaves. -/
theorem arrives_split (e : Exchange) : ∃ rest, e.use.unread e.payload = rest ++ e.late ∧
    items e.ticks = headText e.head.lines ++ (e.use.taken e.payload ++ rest) := by
  rcases e.unread with ⟨rest, hrest⟩
  refine ⟨rest, hrest.symm, ?_⟩
  have harrives := e.arrives
  rw [e.use.wire_eq e.payload, ← hrest, ← List.append_assoc, ← List.append_assoc] at harrives
  have hticks := List.append_cancel_right harrives
  rwa [List.append_assoc] at hticks

/-- A clear connection brings the response from its first byte. -/
theorem start_of_clear (e : Exchange) (link : Link) (h : Clear link) :
    items (e.start link).ticks = items e.ticks ∧
      (Prompt e.ticks → Prompt (e.start link).ticks) := by
  have hnew : items (([] : List (Tick Char)) ++ e.ticks) = items e.ticks ∧
      (Prompt e.ticks → Prompt (([] : List (Tick Char)) ++ e.ticks)) := ⟨rfl, fun hp => hp⟩
  unfold Exchange.start connectLink Source.extend
  cases link with
  | none => exact hnew
  | some s =>
      by_cases hconn : s.connected = true
      · rcases h s rfl with ⟨hitems, hprompt⟩
        simp only [if_pos hconn, items_append, hitems, List.nil_append]
        exact ⟨trivial, fun hp => hprompt.append hp⟩
      · simp only [if_neg hconn]
        exact hnew

/-- A response that comes without a silence is used up to what its use
leaves. -/
theorem read_of_prompt (lib : TimeLibrary) (e : Exchange) (link : Link) (hclear : Clear link)
    (hprompt : Prompt e.ticks) :
    (handleHeaderResponse lib e.moment e.http (e.start link)).2.2 = clampLong e.head.status ∧
      ∀ s, e.use.apply (e.answered lib link).1 (e.answered lib link).2 = some s →
        items s.ticks ++ e.late = e.use.unread e.payload := by
  rcases arrives_split e with ⟨rest, hunread, hitems⟩
  rcases start_of_clear e link hclear with ⟨hstart, hp⟩
  rw [hitems] at hstart
  rcases handleHeaderResponse_of_head lib e.moment e.http e.head e.plain (e.start link)
    (hp hprompt) _ hstart with ⟨-, -, -, -, -, -, hcode, -⟩
  rcases afterHead_of_head lib e.moment e.http e.head e.plain (e.start link).ticks
    (e.start link).ending (hp hprompt) _ hstart with ⟨ticks', hticks', hp', -, hsize, hknown, -⟩
  rcases hknown e.known with ⟨hte, hlink⟩
  refine ⟨(hcode e.known).2, ?_⟩
  intro s hs
  rw [hunread, List.append_cancel_right_eq]
  have hreads := e.reads
  -- A body that is read by `writeToStream`, into whatever sink.
  have hwrite : ∀ k : Sink, k.Accepting → e.payload.Described e.head →
      items ticks' = e.payload.read ++ rest →
      (writeToStream (e.answered lib link).1 (e.answered lib link).2 k).link = some s →
        items s.ticks = rest := by
    intro k hk hdescribed hread hs
    rw [show (e.answered lib link).2 = some ⟨ticks', (e.start link).ending⟩ from hlink] at hs
    cases hpay : e.payload with
    | plain text =>
        rw [hpay] at hdescribed hread
        exact read_plain _ k hk ticks' _ (hte.trans hdescribed.2.1) text rest
          (hsize.trans hdescribed.2.2) hdescribed.1 hread s hs
    | chunked chunks last tail =>
        rw [hpay] at hdescribed hread
        exact read_chunked _ k hk _ (hte.trans hdescribed.2.1) chunks last rest
          hdescribed.2.2.1 hdescribed.1 (hsize.symm ▸ hdescribed.2.2.2) hp' hread s hs
  -- A response that is skipped.
  have hskip : items ticks' = [] ++ rest → (e.answered lib link).2 = some s →
      items s.ticks = rest := by
    intro hnone hs
    rw [← Option.some.inj (hlink.symm.trans hs)]
    exact hnone
  cases huse : e.use with
  | writeToStream k =>
      rw [huse] at hs hreads hticks'
      exact hwrite k hreads.1 hreads.2 hticks' hs
  | getString =>
      rw [huse] at hs hreads hticks'
      by_cases hwant : Wanting (e.answered lib link).1.size
      · have hyes : 0 < (e.answered lib link).1.size ∨ (e.answered lib link).1.size = -1 := hwant
        simp only [Use.apply, getString, if_pos hyes] at hs
        exact hwrite {} rfl hreads.2 hticks' hs
      · rw [Use.apply, getString_sated _ _ hwant] at hs
        rcases hreads.1 with hno | hempty
        · exact absurd (hsize.symm ▸ hno) hwant
        · rw [hempty] at hticks'
          exact hskip hticks' hs
  | followPath =>
      rw [huse] at hs hticks'
      exact hskip hticks' hs
  | followUrl =>
      rw [huse] at hs hticks'
      exact hskip hticks' (disconnect_link _ _ _ s hs)
  | finish =>
      rw [huse] at hs hticks'
      exact hskip hticks' (disconnect_link _ _ _ s hs)

/-- Everything that has arrived is thrown away, up to the first pause. -/
theorem later_of_arrived (s : Text) (ticks : List (Tick Char)) :
    later (s.map Tick.item ++ Tick.wait :: ticks) = Tick.wait :: ticks := by
  induction s with
  | nil => rfl
  | cons a s ih => exact ih

/-- What a kept connection brings next is what was late. -/
theorem discard_of_kept (lib : TimeLibrary) (link : Link) (e : Exchange)
    (hkept : Kept lib link e) : ∃ s, exchange lib link e = some s ∧ s.connected = true ∧
      items s.discard.ticks = e.late ∧ Prompt s.discard.ticks := by
  cases hused : e.use.apply (e.answered lib link).1 (e.answered lib link).2 with
  | none =>
      rw [Kept, exchange, hused] at hkept
      exact absurd rfl hkept
  | some t =>
      have hdiscard : (Source.discard ⟨(items t.ticks).map Tick.item ++
          Tick.wait :: e.late.map Tick.item, t.ending⟩).ticks =
            Tick.wait :: e.late.map Tick.item := later_of_arrived _ _
      rw [exchange, hused]
      refine ⟨_, rfl, ?_, ?_, ?_⟩
      · rw [Source.connected, Bool.or_eq_true, Bool.not_eq_true', List.isEmpty_eq_false_iff]
        exact Or.inl (List.append_ne_nil_of_right_ne_nil _ (List.cons_ne_nil _ _))
      · rw [hdiscard, items_wait, items_map_item]
      · rw [hdiscard]
        intro x hx
        rcases List.mem_cons.1 hx with rfl | hx
        · exact fun h => by cases h
        · exact prompt_map_item e.late x hx

/-- What was late is parsed before the next response. -/
theorem start_of_exchange (lib : TimeLibrary) (link : Link) (e e' : Exchange)
    (hkept : Kept lib link e) :
    items (e'.start (exchange lib link e)).ticks = e.late ++ items e'.ticks := by
  rcases discard_of_kept lib link e hkept with ⟨s, hs, hconn, hitems, -⟩
  rw [hs, Exchange.start, connectLink]
  simp only [if_pos hconn, Source.extend, items_append, hitems]

/-- The next request finds the connection clear unless some of the response is
late. -/
theorem clears_iff (lib : TimeLibrary) (link : Link) (e : Exchange) (hkept : Kept lib link e) :
    Clear (exchange lib link e) ↔ e.late = [] := by
  rcases discard_of_kept lib link e hkept with ⟨s, hs, -, hitems, hprompt⟩
  rw [hs]
  refine ⟨fun h => hitems.symm.trans (h s rfl).1, ?_⟩
  intro hlate t ht
  rw [← Option.some.inj ht]
  exact ⟨hitems.trans hlate, hprompt⟩

/-- The boundary is kept along a run exactly when nothing comes later than the
next request. -/
theorem keepAlive_iff (lib : TimeLibrary) (link : Link) (hclear : Clear link) (es : List Exchange)
    (hkept : EventRun.Always (exchange lib) (Kept lib) link es) :
    EventRun.Always (exchange lib) (AtBoundary lib) link es ↔ ∀ e ∈ es, e.late = [] := by
  induction es generalizing link with
  | nil => exact ⟨fun _ e he => absurd he List.not_mem_nil, fun _ => trivial⟩
  | cons e es ih =>
      have hiff := clears_iff lib link e hkept.1
      rw [EventRun.always_cons, List.forall_mem_cons]
      refine ⟨?_, ?_⟩
      · rintro ⟨hlaw, hrest⟩
        exact ⟨hiff.1 hlaw.clears, (ih _ hlaw.clears hkept.2).1 hrest⟩
      · rintro ⟨hlate, hrest⟩
        have hnext := hiff.2 hlate
        refine ⟨⟨(start_of_clear e link hclear).1, read_of_prompt lib e link hclear, hnext⟩, ?_⟩
        exact (ih _ hnext hkept.2).2 hrest

/-- A page in one chunk. Its last line end is in time or late. -/
def chunkedPage (inTime late : String) (h : inTime.toList ++ late.toList = crlf) : Exchange where
  http := {}
  moment := ⟨0, fun _ => 0⟩
  head := ⟨"HTTP/1.1".toList, "200".toList, "OK".toList,
    [⟨"Transfer-Encoding".toList, " chunked".toList⟩]⟩
  payload := .chunked [⟨"2".toList, "hi".toList⟩] "0".toList crlf
  -- the page arrives in two parts, the second after the body was read
  use := .writeToStream {}
  ticks := ("HTTP/1.1 200 OK\r\nTransfer-Encoding: chunked\r\n\r\n2\r\nhi\r\n0\r\n".toList ++
    inTime.toList).map Tick.item
  late := late.toList
  plain := by decide
  known := by decide
  arrives := by
    rw [items_map_item, List.append_assoc, h]
    rfl
  unread := ⟨inTime.toList, h⟩
  reads := by
    refine ⟨rfl, by decide, by decide, ⟨?_, ?_⟩, by decide⟩
    · intro c hc
      rw [List.mem_singleton.1 hc]
      exact ⟨⟨"2".toList, [], rfl, by decide, by decide, by decide, ⟨Or.inl rfl, by decide⟩⟩,
        by decide⟩
    · exact ⟨"0".toList, [], rfl, by decide, by decide, by decide, ⟨Or.inl rfl, by decide⟩⟩

/-- Two such pages, each read and in time. -/
theorem keepAlive_iff_pages :
    EventRun.Always (exchange plainTime) (AtBoundary plainTime) none
        [chunkedPage "\r\n" "" rfl, chunkedPage "\r\n" "" rfl] ↔
      ∀ e ∈ [chunkedPage "\r\n" "" rfl, chunkedPage "\r\n" "" rfl], e.late = [] :=
  keepAlive_iff plainTime none (fun _ h => nomatch h) _ ⟨by decide, by decide, trivial⟩

/-- The last line end of a chunked page comes after the next request, and is
there when the next head is read. -/
theorem late_line_end : ¬ ∀ link es, Clear link →
    EventRun.Always (exchange plainTime) (Kept plainTime) link es →
      EventRun.Always (exchange plainTime) (AtBoundary plainTime) link es := by
  intro hall
  have hclear : Clear none := fun _ h => nomatch h
  have hkept : Kept plainTime none (chunkedPage "" "\r\n" rfl) := by decide
  have hlaw := hall none [chunkedPage "" "\r\n" rfl] hclear ⟨hkept, trivial⟩
  have hlate := (clears_iff plainTime none _ hkept).1 hlaw.1.clears
  exact absurd hlate (by decide)

end Http

end ArduinoBeken
