import ArduinoBeken.Http.Response

/-!
# The Body of a Response

`writeToStream` and `getString`: what follows the head, copied from the
connection into a stream of the caller, as one block or chunk by chunk.

A block is copied in batches of what has arrived (`copyLoop`). The loop has no
deadline of its own: it waits as long as the connection is not known to be
closed, so on a connection that stays open and silent it never ends. A
function that may not end returns an `Option`, and `none` says that it does
not.

## Main definitions

* `Sink`, `Sink.write`: The stream of the caller.
* `copyBatch`, `copyLoop`, `writeToStreamDataBlock`: One block.
* `chunkLoop`: The chunks.
* `returnError`, `HTTPClient.disconnect`: The end of a call.
* `writeToStream`, `getString`: The body.

## Theorems

* `copyBatch_ok`: A batch that succeeds is delivered whole.
* `copyLoop_done`: What a finished loop took is what it delivered.
* `dataBlock_sized`, `dataBlock_open`: A block into a sink
  that takes everything.
* `dataBlock_exact`: A block copied without an error, into any sink.
-/

namespace ArduinoBeken

namespace Http

open Arrivals

/-- The sum of two `int` values. -/
def addInt (a b : Int) : Int :=
  Int.bmod (a + b) (2 ^ 32)

/-- A stream to write to: what it was given, and how it answers the next
writes: how much each takes at most, and whether it sets the write error.
Later writes take everything. -/
structure Sink where
  received : Text := []
  replies : List (Nat × Bool) := []
deriving DecidableEq, Repr

/-- The sink after a write, the count it returns, and its write error. -/
def Sink.write (k : Sink) (buff : Text) : Sink × Nat × Bool :=
  match k.replies with
  | [] => ({ k with received := k.received ++ buff }, buff.length, false)
  | (n, e) :: replies =>
    (⟨k.received ++ buff.take n, replies⟩, min n buff.length, e)

/-- The sink takes whatever it is given. -/
def Sink.Accepting (k : Sink) : Prop :=
  k.replies = []

/-- The sink with more received. -/
def Sink.took (k : Sink) (s : Text) : Sink :=
  { k with received := k.received ++ s }

/-! ### One block -/

/-- What was read is written, and what was not taken is written once more. The
result tells how much was taken, and whether the copying goes on. -/
def copyBatch (k : Sink) (got : Text) (readBytes : Nat) : Sink × Nat × Bool :=
  let w := k.write got
  if w.2.1 ≠ got.length then
    let leftBytes := readBytes - w.2.1
    let w' := w.1.write ((got.drop w.2.1).take leftBytes)
    (w'.1, w.2.1 + w'.2.1, decide (w'.2.1 = leftBytes) && !w'.2.2)
  else (w.1, w.2.1, !w.2.2)

/-- How a loop over a block ends: with so many bytes written, with a sink that
refused some, or never. -/
inductive CopyEnd where
  | done (bytesWritten : Int)
  | refused
  | never
deriving DecidableEq, Repr

/-- The size of the next batch. -/
def batchSize (available : Nat) (len : Int) (buffSize : Nat) : Nat :=
  min (if 0 < len then min available len.toNat else available) buffSize

/-- The loop over a block wants more: a block of unknown size always does. -/
def Wanting (len : Int) : Prop :=
  0 < len ∨ len = -1

instance (len : Int) : Decidable (Wanting len) :=
  inferInstanceAs (Decidable (_ ∨ _))

/-- The loop over a block. Each turn takes at least one tick of the stream, so
a fuel of more than their number does not run out. -/
def copyLoop (buffSize : Nat) : Nat → Int → Sink → Int → Source Char → Sink × Source Char × CopyEnd
  | 0, _, k, _, s => (k, s, .never)
  | fuel + 1, len, k, bytesWritten, s =>
    if s.connected && decide (Wanting len) then
      if 0 < s.available then
        let readBytes := batchSize s.available len buffSize
        let r := takeExactly s.ending readBytes s.ticks
        let b := copyBatch k r.got readBytes
        if b.2.2 then
          copyLoop buffSize fuel (if 0 < len then len - readBytes else len) b.1
            (addInt bytesWritten b.2.1) r.rest
        else (b.1, r.rest, .refused)
      else
        match s.ticks with
        | .wait :: ticks => copyLoop buffSize fuel len k bytesWritten ⟨ticks, s.ending⟩
        | .silence :: ticks => copyLoop buffSize fuel len k bytesWritten ⟨ticks, s.ending⟩
        | _ => (k, s, .never)
    else (k, s, .done bytesWritten)

/-- `HTTP_TCP_BUFFER_SIZE`. -/
def tcpBufferSize : Nat := 1460

/-- The bytes of the buffer for a block. -/
def buffSizeFor (size : Int) : Nat :=
  if 0 < size ∧ size < tcpBufferSize then size.toNat else tcpBufferSize

/-- `writeToStreamDataBlock`: a block is copied, and the numbers are compared. -/
def writeToStreamDataBlock (size : Int) (k : Sink) (s : Source Char) :
    Sink × Source Char × Option Int :=
  let r := copyLoop (buffSizeFor size) (s.ticks.length + 1) size k 0 s
  (r.1, r.2.1,
    match r.2.2 with
    | .done bytesWritten =>
      if 0 < size ∧ size ≠ bytesWritten then some errorStreamWrite else some bytesWritten
    | .refused => some errorStreamWrite
    | .never => none)

/-! ### The chunks -/

/-- What the loop over the chunks leaves, the size that it sets, its result, and
whether it has come to the last chunk with all its bytes. -/
structure Chunked where
  sink : Sink
  source : Source Char
  size : Int
  result : Option Int
  complete : Bool := false
deriving DecidableEq, Repr

/-- The loop over the chunks, from the counts so far. Each turn takes at least
one tick. -/
def chunkLoop (sizeField : Int) : Nat → Int → Int → Sink → Source Char → Chunked
  | 0, _, _, k, s => { sink := k, source := s, size := sizeField, result := none }
  | fuel + 1, ret, size, k, s =>
    if s.connected then
      let line := takeUntil '\n' s.ending s.ticks
      if line.got = [] then
        { sink := k, source := line.rest, size := sizeField, result := some errorReadTimeout }
      else
        let len := strtol 16 (trim line.got)
        let size := addInt size len
        if 0 < len then
          let block := writeToStreamDataBlock len k line.rest
          match block.2.2 with
          | none => { sink := block.1, source := block.2.1, size := sizeField, result := none }
          | some r =>
            if r < 0 then
              { sink := block.1, source := block.2.1, size := sizeField, result := some r }
            else
              let trailing := takeExactly block.2.1.ending 2 block.2.1.ticks
              if trailing.got = "\r\n".toList then
                chunkLoop sizeField fuel (addInt ret r) size block.1 trailing.rest
              else
                { sink := block.1, source := trailing.rest, size := sizeField
                  result := some errorReadTimeout }
        else
          -- The last chunk. The size that is set here is the one compared with.
          let sizeField := if sizeField ≤ 0 then size else sizeField
          { sink := k, source := line.rest, size := sizeField
            result := if ret ≠ sizeField then some errorStreamWrite else some ret
            complete := decide (ret = sizeField) }
    else { sink := k, source := s, size := sizeField, result := some errorConnectionLost }

/-! ### The end of a call -/

/-- The connection of the client object, if it has one. -/
abbrev Link := Option (Source Char)

/-- `connected`, of a connection or none. -/
def connected (link : Link) : Bool :=
  match link with
  | some s => s.connected
  | none => false

/-- An error stops the connection. -/
def returnError (link : Link) (error : Int) : Link :=
  if error < 0 ∧ connected link = true then none else link

namespace HTTPClient

/-- The client after a disconnect, and the connection. The buffer of a
`WiFiClient` is not flushed by `flush`. -/
def disconnect (c : HTTPClient) (link : Link) (preserveClient : Bool) : HTTPClient × Link :=
  if connected link then
    if c.reuse && c.canReuse then (c, link)
    else if preserveClient then (c, none)
    else if c.tcpDeprecated.isSome then
      ({ c with client := none, transportTraits := none, tcpDeprecated := none }, none)
    else ({ c with client := none }, none)
  else (c, link)

end HTTPClient

/-! ### The body -/

/-- What a call that reads the body leaves, and its result. -/
structure BodyRead where
  http : HTTPClient
  link : Link
  sink : Sink
  result : Option Int
deriving DecidableEq, Repr

/-- The end of `writeToStream`, by what the copying returned. The sum of chunks that are
all there is no error, whatever it is. -/
def bodyEnd (c : HTTPClient) (k : Sink) (s : Source Char) (complete : Bool) :
    Option Int → BodyRead
  | none => ⟨c, some s, k, none⟩
  | some r =>
    if r < 0 ∧ complete = false then ⟨c, returnError (some s) r, k, some r⟩
    else
      let d := c.disconnect (some s) true
      ⟨d.1, d.2, k, some r⟩

/-- `writeToStream`, by the transfer encoding of the response. -/
def writeToStream (c : HTTPClient) (link : Link) (k : Sink) : BodyRead :=
  match link with
  | some s =>
    if s.connected then
      match c.transferEncoding with
      | .identity =>
        let r := writeToStreamDataBlock c.size k s
        bodyEnd c r.1 r.2.1 false r.2.2
      | .chunked =>
        let r := chunkLoop c.size (s.ticks.length + 1) 0 0 k s
        bodyEnd { c with size := r.size } r.sink r.source r.complete r.result
    else ⟨c, link, k, some errorNotConnected⟩
  | none => ⟨c, link, k, some errorNotConnected⟩

/-- The client and connection afterwards, and the text, if the call ends. -/
def getString (c : HTTPClient) (link : Link) : HTTPClient × Link × Option Text :=
  if 0 < c.size ∨ c.size = -1 then
    let r := writeToStream c link {}
    (r.http, r.link, r.result.map fun _ => r.sink.received)
  else (c, link, some [])

/-- The end of a body leaves the result and the sink. -/
theorem bodyEnd_result (c : HTTPClient) (k : Sink) (s : Source Char) (complete : Bool)
    (result : Option Int) :
    (bodyEnd c k s complete result).result = result ∧ (bodyEnd c k s complete result).sink = k := by
  cases result with
  | none => exact ⟨rfl, rfl⟩
  | some r =>
      unfold bodyEnd
      by_cases hr : r < 0 ∧ complete = false
      · simp only [if_pos hr, and_self]
      · simp only [if_neg hr, and_self]

/-! ### Batches -/

theorem Sink.write_accepting (k : Sink) (hk : k.Accepting) (buff : Text) :
    k.write buff = (k.took buff, buff.length, false) := by
  have hnil : k.replies = [] := hk
  simp only [Sink.write, Sink.took, hnil]

theorem Sink.Accepting.took {k : Sink} (hk : k.Accepting) (s : Text) : (k.took s).Accepting :=
  hk

theorem Sink.took_took (k : Sink) (s t : Text) : (k.took s).took t = k.took (s ++ t) := by
  rw [Sink.took, Sink.took, Sink.took, List.append_assoc]

theorem Sink.took_nil (k : Sink) : k.took [] = k := by
  rw [Sink.took, List.append_nil]

/-- Each write takes a first part of what it is given. -/
theorem Sink.write_received (k : Sink) (buff : Text) :
    (k.write buff).1.received = k.received ++ buff.take (k.write buff).2.1 ∧
      (k.write buff).2.1 ≤ buff.length := by
  unfold Sink.write
  split
  · rw [List.take_length]
    exact ⟨rfl, Nat.le_refl _⟩
  · refine ⟨?_, Nat.min_le_right _ _⟩
    simp only []
    rw [List.take_eq_take_min]

theorem copyBatch_accepting (k : Sink) (hk : k.Accepting) (got : Text) (n : Nat) :
    copyBatch k got n = (k.took got, got.length, true) := by
  simp only [copyBatch, Sink.write_accepting k hk, ne_eq, not_true_eq_false, if_false,
    Bool.not_false]

/-- A batch that succeeds is delivered whole. -/
theorem copyBatch_ok (k : Sink) (got : Text) (h : (copyBatch k got got.length).2.2 = true) :
    (copyBatch k got got.length).1.received = k.received ++ got ∧
      (copyBatch k got got.length).2.1 = got.length := by
  have hfirst := k.write_received got
  unfold copyBatch at h ⊢
  by_cases hall : (k.write got).2.1 = got.length
  · simp only [hall, ne_eq, not_true_eq_false, if_false] at h ⊢
    rw [hfirst.1, hall, List.take_length]
    exact ⟨rfl, trivial⟩
  · simp only [hall, ne_eq, not_false_eq_true, if_true, Bool.and_eq_true, decide_eq_true_eq] at h ⊢
    have hrest : (got.drop (k.write got).2.1).take (got.length - (k.write got).2.1) =
        got.drop (k.write got).2.1 := by
      rw [List.take_of_length_le]
      rw [List.length_drop]
    rw [hrest] at h ⊢
    have hsecond := (k.write got).1.write_received (got.drop (k.write got).2.1)
    have hlen : got.length - (k.write got).2.1 = (got.drop (k.write got).2.1).length := by
      rw [List.length_drop]
    refine ⟨?_, by omega⟩
    rw [hsecond.1, hfirst.1, h.1, hlen, List.take_length, List.append_assoc,
      List.take_append_drop]

/-! ### The loop over a block -/

theorem addInt_addInt (w a b : Int) : addInt (addInt w a) b = addInt w (a + b) := by
  rw [addInt, addInt, addInt, Int.bmod_add_bmod, Int.add_assoc]

/-- Sums that an `int` can hold are exact. -/
theorem addInt_of_fits (a b : Int) (hlo : -2147483648 ≤ a + b) (hhi : a + b < 2147483648) :
    addInt a b = a + b := by
  refine Int.bmod_eq_of_le ?_ ?_
  · exact hlo
  · exact hhi

theorem copyLoop_sated (buffSize fuel : Nat) (len : Int) (k : Sink) (w : Int) (s : Source Char)
    (h : ¬ Wanting len) : copyLoop buffSize (fuel + 1) len k w s = (k, s, .done w) := by
  have hfalse : (s.connected && decide (Wanting len)) = false := by
    rw [decide_eq_false h, Bool.and_false]
  rw [copyLoop, if_neg (by rw [hfalse]; exact Bool.false_ne_true)]

/-- What the loop does when the stream has nothing more. -/
theorem copyLoop_dry (buffSize fuel : Nat) (len : Int) (k : Sink) (w : Int) (e : Ending)
    (h : Wanting len) : copyLoop buffSize (fuel + 1) len k w ⟨[], e⟩ =
      (k, ⟨[], e⟩, if e = .closed then .done w else .never) := by
  have hconn : (⟨[], e⟩ : Source Char).connected = decide (e ≠ .closed) := rfl
  rw [copyLoop, hconn, decide_eq_true h, Bool.and_true]
  by_cases he : e = .closed
  · rw [if_pos he, if_neg (by rw [decide_eq_true_eq]; exact fun hne => hne he)]
  · rw [if_neg he, if_pos (by rwa [decide_eq_true_eq])]
    exact if_neg (Nat.lt_irrefl 0)

/-- A moment at which nothing has arrived makes no difference. -/
theorem copyLoop_pause (buffSize fuel : Nat) (len : Int) (k : Sink) (w : Int) (e : Ending)
    (x : Tick Char) (ticks : List (Tick Char)) (hx : ∀ a, x ≠ .item a) (h : Wanting len) :
    copyLoop buffSize (fuel + 1) len k w ⟨x :: ticks, e⟩ =
      copyLoop buffSize fuel len k w ⟨ticks, e⟩ := by
  have hconn : (⟨x :: ticks, e⟩ : Source Char).connected = true := rfl
  rw [copyLoop, hconn, decide_eq_true h, Bool.and_true, if_pos rfl]
  cases x with
  | item a => exact absurd rfl (hx a)
  | wait => exact if_neg (Nat.lt_irrefl 0)
  | silence => exact if_neg (Nat.lt_irrefl 0)

/-- One batch: at least one character, no more than the loop wants, and read
at once. -/
theorem copyLoop_batch (buffSize fuel : Nat) (hbuff : 0 < buffSize) (len : Int) (k : Sink) (w : Int)
    (e : Ending) (a : Char) (ticks : List (Tick Char)) (h : Wanting len) :
    ∃ m, 0 < m ∧ m ≤ (arrived (.item a :: ticks)).length ∧ (0 < len → (m : Int) ≤ len) ∧
      copyLoop buffSize (fuel + 1) len k w ⟨.item a :: ticks, e⟩ =
        if (copyBatch k ((arrived (.item a :: ticks)).take m) m).2.2 then
          copyLoop buffSize fuel (if 0 < len then len - m else len)
            (copyBatch k ((arrived (.item a :: ticks)).take m) m).1
            (addInt w (copyBatch k ((arrived (.item a :: ticks)).take m) m).2.1)
            ⟨(Tick.item a :: ticks).drop m, e⟩
        else ((copyBatch k ((arrived (.item a :: ticks)).take m) m).1,
          ⟨(Tick.item a :: ticks).drop m, e⟩, .refused) := by
  have hav : 0 < (arrived (Tick.item a :: ticks)).length := Nat.succ_pos _
  refine ⟨batchSize (arrived (.item a :: ticks)).length len buffSize, ?_, ?_, ?_, ?_⟩
  · unfold batchSize
    split <;> omega
  · unfold batchSize
    split <;> omega
  · intro hlen
    rw [batchSize, if_pos hlen]
    omega
  · have hle : batchSize (arrived (.item a :: ticks)).length len buffSize ≤
        (arrived (.item a :: ticks)).length := by
      unfold batchSize
      split <;> omega
    have hconn : (⟨.item a :: ticks, e⟩ : Source Char).connected = true := rfl
    have hpos : 0 < (⟨.item a :: ticks, e⟩ : Source Char).available := hav
    rw [copyLoop, hconn, decide_eq_true h, Bool.and_true, if_pos rfl, if_pos hpos]
    simp only [Source.available, takeExactly_of_arrived e _ _ hle]

/-- What a finished loop took is what it delivered, whatever the sink. -/
theorem copyLoop_done (buffSize : Nat) (hbuff : 0 < buffSize) (e : Ending) (fuel : Nat) (len : Int)
    (k : Sink) (w : Int) (ticks : List (Tick Char)) (hfuel : ticks.length < fuel)
    (hw : addInt w 0 = w) (w' : Int)
    (h : (copyLoop buffSize fuel len k w ⟨ticks, e⟩).2.2 = .done w') :
    ∃ s ticks', (copyLoop buffSize fuel len k w ⟨ticks, e⟩).2.1 = ⟨ticks', e⟩ ∧ ticks' <:+ ticks ∧
      items ticks = s ++ items ticks' ∧
      (copyLoop buffSize fuel len k w ⟨ticks, e⟩).1.received = k.received ++ s ∧
      w' = addInt w s.length ∧ (0 ≤ len → (s.length : Int) ≤ len) ∧
      ((s.length : Int) = len → ticks' = afterItems s.length ticks) := by
  -- on the fuel: each turn waits, takes a batch or ends
  induction fuel generalizing len k w ticks with
  | zero => exact absurd hfuel (Nat.not_lt_zero _)
  | succ fuel ih =>
      -- A loop that ends at once has taken nothing.
      have hend : ∀ c : CopyEnd, c = .done w' → c = .done w →
          ∃ s ticks', (⟨ticks, e⟩ : Source Char) = ⟨ticks', e⟩ ∧ ticks' <:+ ticks ∧
            items ticks = s ++ items ticks' ∧ k.received = k.received ++ s ∧
            w' = addInt w s.length ∧ (0 ≤ len → (s.length : Int) ≤ len) ∧
            ((s.length : Int) = len → ticks' = afterItems s.length ticks) := by
        intro c hc hc'
        refine ⟨[], ticks, rfl, List.suffix_refl _, rfl, (List.append_nil _).symm, ?_, ?_,
          fun _ => (afterItems_zero ticks).symm⟩
        · rw [hc] at hc'
          rw [CopyEnd.done.inj hc']
          exact hw.symm
        · exact fun hpos => hpos
      by_cases hwant : Wanting len
      · cases ticks with
        | nil =>
            rw [copyLoop_dry buffSize fuel len k w e hwant] at h ⊢
            by_cases he : e = .closed
            · exact hend _ h (if_pos he)
            · rw [if_neg he] at h
              exact absurd h CopyEnd.noConfusion
        | cons x ticks =>
            rw [List.length_cons] at hfuel
            -- a pause costs a turn and takes nothing
            by_cases hx : ∀ a, x ≠ .item a
            · rw [copyLoop_pause buffSize fuel len k w e x ticks hx hwant] at h ⊢
              rcases ih len k w ticks (by omega) hw h with
                ⟨s, ticks', hs, hsuf, hi, hr, hw', hl, hafter⟩
              refine ⟨s, ticks', hs, hsuf.trans (List.suffix_cons x ticks), ?_, hr, hw', hl, ?_⟩
              · cases x with
                | item a => exact absurd rfl (hx a)
                | wait => exact hi
                | silence => exact hi
              · intro hlen
                rw [hafter hlen, afterItems_pause _ _ x ticks hx]
                unfold Wanting at hwant
                omega
            · cases x with
              | wait => exact absurd (fun a h => nomatch h) hx
              | silence => exact absurd (fun a h => nomatch h) hx
              | item a =>
                  rcases copyLoop_batch buffSize fuel hbuff len k w e a ticks hwant with
                    ⟨m, hm, hle, hmlen, heq⟩
                  have hgot : ((arrived (.item a :: ticks)).take m).length = m := by
                    rw [List.length_take]
                    omega
                  rw [heq] at h ⊢
                  -- a batch that is written whole leaves the loop with the rest of the length
                  by_cases hok : (copyBatch k ((arrived (.item a :: ticks)).take m) m).2.2 = true
                  · have hbatch := copyBatch_ok k ((arrived (.item a :: ticks)).take m)
                      (by rw [hgot]; exact hok)
                    rw [hgot] at hbatch
                    rw [if_pos hok] at h ⊢
                    rcases ih _ _ _ ((Tick.item a :: ticks).drop m)
                      (by rw [List.length_drop, List.length_cons]; omega)
                      (by rw [addInt_addInt, Int.add_zero]) h with
                      ⟨s, ticks', hs, hsuf, hi, hr, hw', hl, hafter⟩
                    refine ⟨(arrived (.item a :: ticks)).take m ++ s, ticks', hs,
                      hsuf.trans (List.drop_suffix m _), ?_, ?_, ?_, ?_, ?_⟩
                    · rw [List.append_assoc, ← hi]
                      exact items_drop_of_arrived m _ hle
                    · rw [hr, hbatch.1, List.append_assoc]
                    · rw [hw', hbatch.2, addInt_addInt, List.length_append, hgot]
                      rfl
                    -- what a turn takes is no more than what is still wanted
                    · intro hpos
                      have hlen : 0 < len := by
                        unfold Wanting at hwant
                        omega
                      have hm := hmlen hlen
                      have := hl (by rw [if_pos hlen]; omega)
                      rw [if_pos hlen] at this
                      rw [List.length_append, hgot]
                      omega
                    · intro hlen
                      rw [List.length_append, hgot] at hlen ⊢
                      rw [hafter (by rw [if_pos (by omega)]; omega), afterItems_add m _ _ hle]
                  -- one that is not ends the loop, and not as done
                  · rw [if_neg hok] at h
                    exact absurd h CopyEnd.noConfusion
      · rw [copyLoop_sated buffSize fuel len k w _ hwant] at h ⊢
        exact hend _ h rfl

/-- One batch into a sink that takes everything. -/
theorem copyLoop_batch_accepting (buffSize fuel : Nat) (hbuff : 0 < buffSize) (len : Int) (k : Sink)
    (hk : k.Accepting) (w : Int) (e : Ending) (a : Char) (ticks : List (Tick Char))
    (h : Wanting len) :
    ∃ m, 0 < m ∧ m ≤ (arrived (.item a :: ticks)).length ∧ (0 < len → (m : Int) ≤ len) ∧
      copyLoop buffSize (fuel + 1) len k w ⟨.item a :: ticks, e⟩ =
        copyLoop buffSize fuel (if 0 < len then len - m else len)
          (k.took ((arrived (.item a :: ticks)).take m)) (addInt w m)
          ⟨(Tick.item a :: ticks).drop m, e⟩ := by
  rcases copyLoop_batch buffSize fuel hbuff len k w e a ticks h with ⟨m, hm, hle, hmlen, heq⟩
  have hgot : ((arrived (.item a :: ticks)).take m).length = m := by
    rw [List.length_take]
    omega
  refine ⟨m, hm, hle, hmlen, ?_⟩
  rw [heq, copyBatch_accepting k hk, hgot]
  exact if_pos rfl

/-- A batch is the front of the block that it is read from, and the rest of the block is
still to come. -/
theorem front_of_batch {ticks : List (Tick Char)} {s rest : Text} {m : Nat}
    (hle : m ≤ (arrived ticks).length) (hms : m ≤ s.length) (h : items ticks = s ++ rest) :
    (arrived ticks).take m = s.take m ∧ items (ticks.drop m) = s.drop m ++ rest := by
  have hsplit := items_drop_of_arrived m ticks hle
  have hgot : (arrived ticks).take m = s.take m := by
    have htake := congrArg (List.take m) (hsplit.symm.trans h)
    rwa [List.take_append_of_le_length (by rw [List.length_take]; omega), List.take_take,
      Nat.min_self, List.take_append_of_le_length hms] at htake
  have hboth := hsplit.symm.trans h
  rw [hgot] at hboth
  refine ⟨hgot, ?_⟩
  rw [← List.append_cancel_left_eq (s.take m), hboth, ← List.append_assoc, List.take_append_drop]

/-- A block of a known size, of which everything comes: it is taken exactly, in
whatever batches, and what follows it is left. -/
theorem copyLoop_fed (buffSize : Nat) (hbuff : 0 < buffSize) (e : Ending) (fuel : Nat) (k : Sink)
    (hk : k.Accepting) (w : Int) (hw : addInt w 0 = w) (ticks : List (Tick Char))
    (hfuel : ticks.length < fuel) (s rest : Text) (h : items ticks = s ++ rest) :
    copyLoop buffSize fuel s.length k w ⟨ticks, e⟩ =
      (k.took s, ⟨afterItems s.length ticks, e⟩, .done (addInt w s.length)) := by
  -- on the fuel: a round waits, or it takes a batch of what is there
  induction fuel generalizing k w ticks s with
  | zero => exact absurd hfuel (Nat.not_lt_zero _)
  | succ fuel ih =>
      by_cases hs : s = []
      · subst hs
        rw [copyLoop_sated buffSize fuel _ k w _ (by unfold Wanting; decide), Sink.took_nil,
          List.length_nil, afterItems_zero]
        exact congrArg (fun n => (k, _, CopyEnd.done n)) hw.symm
      · have hpos : 0 < s.length := List.length_pos_iff.2 hs
        have hwant : Wanting (s.length : Int) := Or.inl (by omega)
        cases ticks with
        | nil => exact absurd (List.append_eq_nil_iff.1 h.symm).1 hs
        | cons x ticks =>
            rw [List.length_cons] at hfuel
            by_cases hx : ∀ a, x ≠ .item a
            · rw [copyLoop_pause buffSize fuel _ k w e x ticks hx hwant,
                afterItems_pause _ hpos x ticks hx]
              refine ih k hk w hw ticks (by omega) s ?_
              cases x with
              | item a => exact absurd rfl (hx a)
              | wait => exact h
              | silence => exact h
            · cases x with
              | wait => exact absurd (fun a h => nomatch h) hx
              | silence => exact absurd (fun a h => nomatch h) hx
              | item a =>
                  rcases copyLoop_batch_accepting buffSize fuel hbuff _ k hk w e a ticks hwant with
                    ⟨m, hm, hle, hmlen, heq⟩
                  -- the batch does not reach beyond the length
                  have hmle : m ≤ s.length := by
                    have := hmlen (by omega)
                    omega
                  rcases front_of_batch hle hmle h with ⟨hgot, hleft⟩
                  have hlen : ((s.length : Int) - m) = ((s.drop m).length : Int) := by
                    rw [List.length_drop]
                    omega
                  have hafter : afterItems s.length (.item a :: ticks) =
                      afterItems (s.drop m).length ((Tick.item a :: ticks).drop m) := by
                    rw [← afterItems_add m _ _ hle, List.length_drop]
                    congr 1
                    omega
                  rw [heq, if_pos (by omega), hgot, hlen,
                    ih (k.took (s.take m)) (hk.took _) (addInt w m)
                      (by rw [addInt_addInt, Int.add_zero]) ((Tick.item a :: ticks).drop m)
                      (by rw [List.length_drop, List.length_cons]; omega) (s.drop m) hleft,
                    Sink.took_took, List.take_append_drop, addInt_addInt, hafter, ← hlen]
                  congr 4
                  omega

/-- A loop that wants more than ever comes takes all there is, and ends with
the connection, if the close is noticed. -/
theorem copyLoop_starved (buffSize : Nat) (hbuff : 0 < buffSize) (e : Ending) (fuel : Nat)
    (len : Int) (k : Sink) (hk : k.Accepting) (w : Int) (hw : addInt w 0 = w)
    (ticks : List (Tick Char)) (hfuel : ticks.length < fuel)
    (h : len = -1 ∨ ((items ticks).length : Int) < len) :
    copyLoop buffSize fuel len k w ⟨ticks, e⟩ =
      (k.took (items ticks), ⟨[], e⟩,
        if e = .closed then .done (addInt w (items ticks).length) else .never) := by
  -- on the fuel, as above, but the stream ends before what is wanted is there
  induction fuel generalizing len k w ticks with
  | zero => exact absurd hfuel (Nat.not_lt_zero _)
  | succ fuel ih =>
      have hwant : Wanting len := by
        unfold Wanting
        omega
      cases ticks with
      | nil =>
          rw [copyLoop_dry buffSize fuel len k w e hwant, items_nil, Sink.took_nil, List.length_nil]
          exact congrArg (fun n => (k, _, if e = .closed then CopyEnd.done n else .never)) hw.symm
      | cons x ticks =>
          rw [List.length_cons] at hfuel
          by_cases hx : ∀ a, x ≠ .item a
          · have hitems : items (x :: ticks) = items ticks := by
              cases x with
              | item a => exact absurd rfl (hx a)
              | wait => rfl
              | silence => rfl
            rw [copyLoop_pause buffSize fuel _ k w e x ticks hx hwant, hitems]
            rw [hitems] at h
            exact ih len k hk w hw ticks (by omega) h
          · cases x with
            | wait => exact absurd (fun a h => nomatch h) hx
            | silence => exact absurd (fun a h => nomatch h) hx
            | item a =>
                rcases copyLoop_batch_accepting buffSize fuel hbuff _ k hk w e a ticks hwant with
                  ⟨m, hm, hle, hmlen, heq⟩
                have hsplit := items_drop_of_arrived m (.item a :: ticks) hle
                have hlen : (items (Tick.item a :: ticks)).length =
                    m + (items ((Tick.item a :: ticks).drop m)).length := by
                  rw [hsplit, List.length_append, List.length_take, Nat.min_eq_left hle]
                rw [heq,
                  ih _ (k.took ((arrived (.item a :: ticks)).take m)) (hk.took _) (addInt w m)
                  (by rw [addInt_addInt, Int.add_zero]) ((Tick.item a :: ticks).drop m)
                  (by rw [List.length_drop, List.length_cons]; omega) ?_, Sink.took_took, ← hsplit,
                  addInt_addInt, hlen]
                · rfl
                -- what is missing stays missing: the batch is taken from both sides
                · rcases h with h | h
                  · left
                    rw [if_neg (by omega)]
                    exact h
                  · right
                    rw [if_pos (by omega)]
                    omega

/-! ### One block, of a size or to the end -/

theorem buffSizeFor_pos (size : Int) : 0 < buffSizeFor size := by
  unfold buffSizeFor tcpBufferSize
  split <;> omega

theorem addInt_zero_of_size (n : Nat) (hn : n < 2147483648) : addInt 0 n = n := by
  rw [addInt_of_fits 0 n (by omega) (by omega), Int.zero_add]

/-- A block of a known size of which everything comes. -/
theorem dataBlock_sized (k : Sink) (hk : k.Accepting) (e : Ending) (ticks : List (Tick Char))
    (s rest : Text) (hs : s.length < 2147483648) (h : items ticks = s ++ rest) :
    writeToStreamDataBlock s.length k ⟨ticks, e⟩ =
      (k.took s, ⟨afterItems s.length ticks, e⟩, some (s.length : Int)) := by
  rw [writeToStreamDataBlock, copyLoop_fed (buffSizeFor s.length) (buffSizeFor_pos _) e
    (ticks.length + 1) k hk 0 rfl ticks (Nat.lt_succ_self _) s rest h]
  simp only [addInt_zero_of_size s.length hs]
  rw [if_neg (fun hne => hne.2 rfl)]

/-- A block of unknown size. -/
theorem dataBlock_open (k : Sink) (hk : k.Accepting) (e : Ending) (ticks : List (Tick Char)) :
    writeToStreamDataBlock (-1) k ⟨ticks, e⟩ =
      (k.took (items ticks), ⟨[], e⟩,
        if e = .closed then some (addInt 0 (items ticks).length) else none) := by
  rw [writeToStreamDataBlock, copyLoop_starved (buffSizeFor (-1)) (buffSizeFor_pos _) e
    (ticks.length + 1) (-1) k hk 0 rfl ticks (Nat.lt_succ_self _) (Or.inl rfl)]
  by_cases he : e = .closed
  · simp only [if_pos he]
    rw [if_neg (by omega)]
  · simp only [if_neg he]

/-- A block of no size takes nothing. -/
theorem dataBlock_nothing (k : Sink) (s : Source Char) (size : Int) (h : ¬ Wanting size) :
    writeToStreamDataBlock size k s = (k, s, some 0) := by
  have hzero : ¬ (0 < size ∧ size ≠ 0) := by
    unfold Wanting at h
    omega
  rw [writeToStreamDataBlock, copyLoop_sated _ _ size k 0 s h]
  simp only [if_neg hzero]

/-- A block of a known size that is copied without an error took exactly that
much, whatever the sink. -/
theorem dataBlock_exact (k : Sink) (e : Ending) (ticks : List (Tick Char)) (size : Int)
    (hpos : 0 < size) (hsize : size < 2147483648) (r : Int) (hr : 0 ≤ r)
    (h : (writeToStreamDataBlock size k ⟨ticks, e⟩).2.2 = some r) :
    ∃ s, (writeToStreamDataBlock size k ⟨ticks, e⟩).2.1 = ⟨afterItems s.length ticks, e⟩ ∧
      items ticks = s ++ items (afterItems s.length ticks) ∧
      (writeToStreamDataBlock size k ⟨ticks, e⟩).1.received = k.received ++ s ∧
      (s.length : Int) = size ∧ r = size := by
  simp only [writeToStreamDataBlock] at h ⊢
  cases hend : (copyLoop (buffSizeFor size) (ticks.length + 1) size k 0 ⟨ticks, e⟩).2.2 with
  | done w =>
      rcases copyLoop_done (buffSizeFor size) (buffSizeFor_pos size) e (ticks.length + 1) size k 0
        ticks (Nat.lt_succ_self _) rfl w hend with
        ⟨s, ticks', hs, -, hi, hrec, hw, hle, hafter⟩
      have hlen := hle (by omega)
      rw [addInt_zero_of_size _ (by omega)] at hw
      rw [hend] at h
      simp only [] at h
      -- a copy that is too short is an error, so a result is the size
      by_cases hne : 0 < size ∧ size ≠ w
      · rw [if_pos hne] at h
        have := Option.some.inj h
        unfold errorStreamWrite at this
        omega
      · rw [if_neg hne] at h
        have := Option.some.inj h
        have hsame := hafter (by omega)
        rw [hsame] at hs hi
        exact ⟨s, hs, hi, hrec, by omega, by omega⟩
  | refused =>
      rw [hend] at h
      have := Option.some.inj h
      unfold errorStreamWrite at this
      omega
  | never =>
      rw [hend] at h
      exact absurd h (fun hno => nomatch hno)

end Http

end ArduinoBeken
