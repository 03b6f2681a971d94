import ArduinoBeken.Mqtt.WrittenPackets

/-!
# What the Client Reads

Reading takes one packet off the stream, however its bytes arrive, and leaves the next ones
there. A packet for which the buffer is too small is passed over, unless there is a stream: then
what the buffer has no room for goes to the stream alone, with the rest of the payload.

## Main definitions

* `having`: A client that differs in its buffer and its streams.
* `payloadOf`: What a packet adds to the stream.
* `taken`: The packet that any bytes begin with.

## Theorems

* `lengthLoop_spec`, `bodyLoop_spec`: The loops.
* `readPacket_spec`, `readPacket_none`: Any bytes at all.
* `readPacket_frame`: A packet of MQTT.
-/

namespace ArduinoBeken

namespace Mqtt

open Arrivals
open CheckedBytes (Block Fault byte load store Placed exists_store placed_store)
open MqttPackets (Packet Frame lengthBytes readLength text word)

variable {bufferSize : UInt16}

namespace PubSubClient

/-- The client with a buffer, with what is to come and with what went to the stream. -/
def having (c : PubSubClient bufferSize) (buffer : Block bufferSize.toNat)
    (ticks : List (Tick UInt8)) (stream : Option (List UInt8)) : PubSubClient bufferSize :=
  { c with
    buffer, stream
    _client := { c._client with source := { c._client.source with ticks } } }

theorem readByte_spec (c : PubSubClient bufferSize) (buffer : Block bufferSize.toNat)
    (stream : Option (List UInt8)) {ticks : List (Tick UInt8)} {b : UInt8} {rest : List UInt8}
    (h : heard ticks = b :: rest) :
    ∃ ticks', (c.having buffer ticks stream).readByte = (some b, c.having buffer ticks' stream) ∧
      ticks' <:+ ticks ∧ heard ticks' = rest := by
  obtain ⟨ticks', hread, hsuffix, hrest⟩ := timedReadFrom_of_heard c._client.source.ending h
  refine ⟨ticks', ?_, hsuffix, hrest⟩
  change ((timedReadFrom c._client.source.ending ticks).1, _) = _
  rw [hread]
  change (some b, { c.having buffer ticks stream with _client :=
    { c._client with source := (timedReadFrom c._client.source.ending ticks).2 } }) = _
  rw [hread]
  rfl

/-- A read gives up when there is nothing to hear. -/
theorem readByte_none (c : PubSubClient bufferSize) (h : heard c._client.source.ticks = []) :
    ∃ c', c.readByte = (none, c') := by
  have hread := timedReadFrom_of_heard_nil c._client.source.ending h
  refine ⟨{ c with _client := { c._client with source := (timedRead c._client.source).2 } }, ?_⟩
  rw [readByte, timedRead]
  exact Prod.ext hread rfl

/-- A byte is read into the buffer. -/
theorem readInto_spec (c : PubSubClient bufferSize) (buffer : Block bufferSize.toNat)
    (stream : Option (List UInt8)) {ticks : List (Tick UInt8)} {b : UInt8} {rest : List UInt8}
    (index : Nat) (hindex : index < bufferSize.toNat) (h : heard ticks = b :: rest) :
    ∃ buffer' ticks', (c.having buffer ticks stream).readInto index =
        .ok (true, c.having buffer' ticks' stream) ∧
      ticks' <:+ ticks ∧ heard ticks' = rest ∧ Placed buffer'.1 index [b] ∧
      ∀ p d, Placed buffer.1 p d → p + d.length ≤ index → Placed buffer'.1 p d := by
  obtain ⟨ticks', hread, hsuffix, hrest⟩ := readByte_spec c buffer stream h
  obtain ⟨buffer', hstore⟩ := exists_store buffer index [b]
    (by rw [List.length_singleton]; omega)
  refine ⟨buffer', ticks', ?_, hsuffix, hrest, placed_store hstore,
    fun p d hp hle => hp.store hstore (Or.inl hle)⟩
  rw [readInto, hread]
  change (store buffer index [b] >>= _) = _
  rw [hstore]
  rfl

theorem readInto_none (c : PubSubClient bufferSize) (index : Nat)
    (h : heard c._client.source.ticks = []) : ∃ c', c.readInto index = .ok (false, c') := by
  obtain ⟨c', hread⟩ := readByte_none c h
  exact ⟨c', by rw [readInto, hread]⟩

/-- The last byte of a length. -/
theorem lastDigit_spec (c : PubSubClient bufferSize) (stream : Option (List UInt8)) (r : Nat)
    (hr : r < 4) (hsize : 5 ≤ bufferSize.toNat) (buffer : Block bufferSize.toNat)
    (multiplier length : Nat) {ticks : List (Tick UInt8)} {b : UInt8} {rest : List UInt8}
    (h : heard ticks = b :: rest) (hb : b.toNat < 128) :
    ∃ buffer' ticks',
      lengthLoop (r + 1) (c.having buffer ticks stream) multiplier length =
        .ok (some (4 - r + 1, length + b.toNat * multiplier), c.having buffer' ticks' stream) ∧
      ticks' <:+ ticks ∧ heard ticks' = rest ∧ Placed buffer'.1 (4 - r) [b] ∧
      ∀ p d, Placed buffer.1 p d → p + d.length ≤ 4 - r → Placed buffer'.1 p d := by
  obtain ⟨ticks', hread, hsuffix, hrest⟩ := readByte_spec c buffer stream h
  obtain ⟨buffer', hstore⟩ := exists_store buffer (4 - r) [b]
    (by rw [List.length_singleton]; omega)
  refine ⟨buffer', ticks', ?_, hsuffix, hrest, placed_store hstore,
    fun p d hp hle => hp.store hstore (Or.inl hle)⟩
  -- a byte below 128 is the last of the length
  have hend : 5 - r = 4 - r + 1 := by omega
  rw [lengthLoop, hread]
  change (store buffer (4 - r) [b] >>= _) = _
  rw [hstore]
  change (if 128 ≤ b then _ else _) = _
  rw [if_neg (by rw [UInt8.le_iff_toNat_le]; change ¬ 128 ≤ _; omega), Nat.mod_eq_of_lt hb, hend]
  rfl

/-- The bytes of a length are read. -/
theorem lengthLoop_spec (c : PubSubClient bufferSize) (stream : Option (List UInt8)) (r n : Nat)
    (hr : r < 4) (hsize : 5 ≤ bufferSize.toNat) (buffer : Block bufferSize.toNat)
    (multiplier length : Nat) {ticks : List (Tick UInt8)} {rest : List UInt8}
    (h : readLength (r + 1) (heard ticks) = some (n, rest)) :
    ∃ digits buffer' ticks', heard ticks = digits ++ rest ∧ 0 < digits.length ∧
      digits.length ≤ r + 1 ∧
      lengthLoop (r + 1) (c.having buffer ticks stream) multiplier length =
        .ok (some (4 - r + digits.length, length + n * multiplier),
          c.having buffer' ticks' stream) ∧
      ticks' <:+ ticks ∧ heard ticks' = rest ∧ Placed buffer'.1 (4 - r) digits ∧
      ∀ p d, Placed buffer.1 p d → p + d.length ≤ 4 - r → Placed buffer'.1 p d := by
  -- induction on the bytes that the length field may still have
  induction r generalizing n buffer multiplier length ticks with
  | zero =>
      obtain ⟨b, bytes, hbytes⟩ : ∃ b bytes, heard ticks = b :: bytes := by
        cases hb : heard ticks with
        | nil => rw [hb] at h; cases h
        | cons b bytes => exact ⟨b, bytes, rfl⟩
      rw [hbytes, readLength] at h
      by_cases hb : b.toNat < 128
      · rw [if_pos hb, Option.some.injEq, Prod.mk.injEq] at h
        obtain ⟨rfl, rfl⟩ := h
        obtain ⟨buffer', ticks', hloop, hsuffix, hrest, hplaced, hkeeps⟩ :=
          lastDigit_spec c stream 0 hr hsize buffer multiplier length hbytes hb
        exact ⟨[b], buffer', ticks', hbytes, Nat.one_pos, Nat.le_refl 1, hloop, hsuffix, hrest,
          hplaced, hkeeps⟩
      · rw [if_neg hb] at h
        cases h
  | succ r ih =>
      obtain ⟨b, bytes, hbytes⟩ : ∃ b bytes, heard ticks = b :: bytes := by
        cases hb : heard ticks with
        | nil => rw [hb] at h; cases h
        | cons b bytes => exact ⟨b, bytes, rfl⟩
      rw [hbytes, readLength] at h
      by_cases hb : b.toNat < 128
      · rw [if_pos hb, Option.some.injEq, Prod.mk.injEq] at h
        obtain ⟨rfl, rfl⟩ := h
        obtain ⟨buffer', ticks', hloop, hsuffix, hrest, hplaced, hkeeps⟩ :=
          lastDigit_spec c stream (r + 1) hr hsize buffer multiplier length hbytes hb
        exact ⟨[b], buffer', ticks', hbytes, Nat.one_pos, Nat.succ_le_succ (Nat.zero_le _), hloop,
          hsuffix, hrest, hplaced, hkeeps⟩
      -- the digit counts for its own place, the rest for the places behind it
      · rw [if_neg hb, Option.map_eq_some_iff] at h
        obtain ⟨⟨m, rest'⟩, hread', hpair⟩ := h
        rw [Prod.mk.injEq] at hpair
        obtain ⟨rfl, rfl⟩ := hpair
        obtain ⟨ticks1, hread, hsuffix1, hrest1⟩ := readByte_spec c buffer stream hbytes
        obtain ⟨buffer1, hstore⟩ := exists_store buffer (4 - (r + 1)) [b]
          (by rw [List.length_singleton]; omega)
        obtain ⟨digits, buffer', ticks', hdigits, hpos, hle, hloop, hsuffix, hrest, hplaced,
          hkeeps⟩ := ih m (by omega) buffer1 (multiplier * 128)
            (length + b.toNat % 128 * multiplier) (hrest1 ▸ hread')
        have hbits := b.toNat_lt
        refine ⟨b :: digits, buffer', ticks', ?_, Nat.succ_pos _, Nat.succ_le_succ hle, ?_,
          hsuffix.trans hsuffix1, hrest, ?_, fun p d hp hle =>
            hkeeps p d (hp.store hstore (Or.inl hle)) (by omega)⟩
        · rw [hbytes, ← hrest1, hdigits, List.cons_append]
        · rw [lengthLoop, hread]
          change (store buffer (4 - (r + 1)) [b] >>= _) = _
          rw [hstore]
          change (if 128 ≤ b then _ else _) = _
          rw [if_pos (by rw [UInt8.le_iff_toNat_le]; change 128 ≤ _; omega)]
          have hend : 4 - r + digits.length = 4 - (r + 1) + (b :: digits).length := by
            rw [List.length_cons]
            omega
          have hvalue : length + b.toNat % 128 * multiplier + m * (multiplier * 128) =
              length + (b.toNat - 128 + 128 * m) * multiplier := by
            have hmod : b.toNat % 128 = b.toNat - 128 := by omega
            rw [hmod]
            ring
          rw [hend, hvalue] at hloop
          exact hloop
        -- the digit stands before those of the rest
        · rw [← List.singleton_append]
          refine Placed.append ?_ ?_
          · exact hkeeps _ _ (placed_store hstore) (by rw [List.length_singleton]; omega)
          · have hnext : 4 - (r + 1) + [b].length = 4 - r := by
              rw [List.length_singleton]
              omega
            rw [hnext]
            exact hplaced

/-- A length that does not end is given up. -/
theorem lengthLoop_none (c : PubSubClient bufferSize) (r : Nat) (hr : r ≤ 4)
    (hsize : 5 ≤ bufferSize.toNat) (multiplier length : Nat)
    (h : readLength r (heard c._client.source.ticks) = none) :
    ∃ c', lengthLoop r c multiplier length = .ok (none, c') := by
  -- no length: the field is longer than four bytes, or the bytes end
  induction r generalizing c multiplier length with
  | zero => exact ⟨c.kill, rfl⟩
  | succ r ih =>
      cases hb : heard c._client.source.ticks with
      | nil =>
          obtain ⟨c', hread⟩ := readByte_none c hb
          exact ⟨c', by rw [lengthLoop, hread]⟩
      | cons b bytes =>
          obtain ⟨ticks', hread, -, hrest⟩ := readByte_spec c c.buffer c.stream hb
          obtain ⟨buffer', hstore⟩ := exists_store c.buffer (4 - r) [b]
            (by rw [List.length_singleton]; omega)
          have hread' : c.readByte = (some b, c.having c.buffer ticks' c.stream) := hread
          -- the digit read so far was not the last one
          rw [hb, readLength] at h
          split_ifs at h with hlast
          rw [Option.map_eq_none_iff, ← hrest] at h
          obtain ⟨c', hloop⟩ := ih (c.having buffer' ticks' c.stream) (by omega)
            (multiplier * 128) (length + b.toNat % 128 * multiplier) h
          refine ⟨c', ?_⟩
          rw [lengthLoop, hread']
          change (store c.buffer (4 - r) [b] >>= _) = _
          rw [hstore]
          change (if 128 ≤ b then _ else _) = _
          rw [if_pos (by rw [UInt8.le_iff_toNat_le]; change 128 ≤ _; omega)]
          exact hloop

/-- What the bytes of a body from a place on add to the stream. -/
def streamed (isPublish : Bool) (lengthLength skip idx : Nat) (data : List UInt8) : List UInt8 :=
  if isPublish then data.drop (skip + lengthLength + 3 - idx) else []

theorem streamed_nil (isPublish : Bool) (lengthLength skip idx : Nat) :
    streamed isPublish lengthLength skip idx [] = [] := by
  rw [streamed, List.drop_nil, ite_self]

theorem streamed_cons (isPublish : Bool) (lengthLength skip idx : Nat) (b : UInt8)
    (data : List UInt8) : streamed isPublish lengthLength skip idx (b :: data) =
      (if isPublish ∧ skip < idx - lengthLength - 2 then [b] else []) ++
        streamed isPublish lengthLength skip (idx + 1) data := by
  rw [streamed, streamed]
  -- the stream takes the bytes behind topic and identifier of a PUBLISH
  cases isPublish with
  | false =>
      rw [if_neg Bool.false_ne_true, if_neg Bool.false_ne_true,
        if_neg fun h => Bool.false_ne_true h.1]
      rfl
  | true =>
      rw [if_pos rfl, if_pos rfl]
      by_cases hskip : skip < idx - lengthLength - 2
      · have h0 : skip + lengthLength + 3 - idx = 0 := by omega
        have h1 : skip + lengthLength + 3 - (idx + 1) = 0 := by omega
        rw [if_pos ⟨rfl, hskip⟩, h0, h1, List.drop_zero, List.drop_zero]
        rfl
      · have h1 : skip + lengthLength + 3 - idx = skip + lengthLength + 3 - (idx + 1) + 1 := by
          omega
        rw [if_neg fun h => hskip h.2, h1, List.drop_succ_cons]
        rfl

/-- Bytes are appended to what went to the stream. -/
theorem map_append_append (stream : Option (List UInt8)) (d e : List UInt8) :
    (stream.map (· ++ d)).map (· ++ e) = stream.map (· ++ (d ++ e)) := by
  rw [Option.map_map]
  congr 1
  funext s
  exact List.append_assoc s d e

theorem map_append_nil (stream : Option (List UInt8)) : stream.map (· ++ []) = stream := by
  cases stream with
  | none => rfl
  | some s => rw [Option.map_some, List.append_nil]

/-- The bytes of a body are read, and the buffer has those for which it has room. -/
theorem bodyLoop_spec (c : PubSubClient bufferSize) (isPublish : Bool) (lengthLength skip : Nat)
    (data rest : List UInt8) (buffer : Block bufferSize.toNat) (stream : Option (List UInt8))
    (idx : Nat) {ticks : List (Tick UInt8)} (h : heard ticks = data ++ rest) :
    ∃ buffer' ticks', bodyLoop isPublish lengthLength skip data.length
        (c.having buffer ticks stream) (min idx bufferSize.toNat) idx =
        .ok (some (min (idx + data.length) bufferSize.toNat, idx + data.length),
          c.having buffer' ticks'
            (stream.map (· ++ streamed isPublish lengthLength skip idx data))) ∧
      ticks' <:+ ticks ∧ heard ticks' = rest ∧
      Placed buffer'.1 idx (data.take (bufferSize.toNat - idx)) ∧
      ∀ p d, Placed buffer.1 p d → p + d.length ≤ idx → Placed buffer'.1 p d := by
  -- the bytes come one by one, each to the buffer if it has room
  induction data generalizing buffer stream idx ticks with
  | nil =>
      refine ⟨buffer, ticks, ?_, List.suffix_refl ticks, h, ?_, fun p d hp _ => hp⟩
      · rw [streamed_nil, map_append_nil]
        rfl
      · rw [List.take_nil]
        exact CheckedBytes.placed_nil _ _
  | cons b data ih =>
      obtain ⟨ticks1, hread, hsuffix1, hrest1⟩ := readByte_spec c buffer stream h
      -- the byte goes to the stream if it belongs to the payload
      have hstream : (if isPublish = true ∧ skip < idx - lengthLength - 2 then
          (c.having buffer ticks1 stream).toStream b else c.having buffer ticks1 stream) =
          c.having buffer ticks1 (stream.map
            (· ++ if isPublish ∧ skip < idx - lengthLength - 2 then [b] else [])) := by
        split_ifs
        · rfl
        · rw [map_append_nil]
      have hcount : idx + (data.length + 1) = idx + 1 + data.length := by omega
      -- with room the byte is stored, and nothing in front of it is touched
      by_cases hroom : idx < bufferSize.toNat
      · obtain ⟨buffer1, hstore⟩ := exists_store buffer idx [b]
          (by rw [List.length_singleton]; omega)
        obtain ⟨buffer', ticks', hloop, hsuffix, hrest, hplaced, hkeeps⟩ := ih buffer1
          (stream.map (· ++ if isPublish ∧ skip < idx - lengthLength - 2 then [b] else []))
          (idx + 1) hrest1
        refine ⟨buffer', ticks', ?_, hsuffix.trans hsuffix1, hrest, ?_, fun p d hp hle =>
          hkeeps p d (hp.store hstore (Or.inl hle)) (by omega)⟩
        · rw [List.length_cons, bodyLoop, hread, hcount, streamed_cons, ← map_append_append]
          dsimp only
          rw [hstream, Nat.min_eq_left (Nat.le_of_lt hroom), if_pos hroom]
          change (store buffer idx [b] >>= _) = _
          rw [hstore, ← hloop, Nat.min_eq_left (by omega)]
          rfl
        · have htake : bufferSize.toNat - idx = bufferSize.toNat - (idx + 1) + 1 := by omega
          rw [htake, List.take_succ_cons, ← List.singleton_append]
          refine Placed.append ?_ hplaced
          exact hkeeps idx [b] (placed_store hstore) (by rw [List.length_singleton])
      -- without room it is dropped, and the count stays at the buffer's end
      · obtain ⟨buffer', ticks', hloop, hsuffix, hrest, hplaced, hkeeps⟩ := ih buffer
          (stream.map (· ++ if isPublish ∧ skip < idx - lengthLength - 2 then [b] else []))
          (idx + 1) hrest1
        have hfull : bufferSize.toNat - idx = 0 := by omega
        have hsame : min (idx + 1) bufferSize.toNat = bufferSize.toNat :=
          Nat.min_eq_right (by omega)
        refine ⟨buffer', ticks', ?_, hsuffix.trans hsuffix1, hrest, ?_, fun p d hp hle =>
          hkeeps p d hp (by omega)⟩
        · rw [List.length_cons, bodyLoop, hread, hcount, streamed_cons, ← map_append_append]
          dsimp only
          rw [hstream, Nat.min_eq_right (Nat.le_of_not_lt hroom), if_neg (Nat.lt_irrefl _),
            ← hloop, hsame]
        · rw [hfull, List.take_zero]
          exact CheckedBytes.placed_nil _ _

/-- A packet that does not fit is ignored without a stream. -/
theorem readBody_spec (c : PubSubClient bufferSize) (isPublish : Bool) (lengthLength skip : Nat)
    (data rest : List UInt8) (buffer : Block bufferSize.toNat) (stream : Option (List UInt8))
    (idx : Nat) (hidx : idx ≤ bufferSize.toNat) {ticks : List (Tick UInt8)}
    (h : heard ticks = data ++ rest) :
    ∃ buffer' ticks', readBody isPublish lengthLength skip data.length idx
        (c.having buffer ticks stream) =
        .ok (if stream = none ∧ bufferSize.toNat < idx + data.length then 0
          else min (idx + data.length) bufferSize.toNat, c.having buffer' ticks'
            (stream.map (· ++ streamed isPublish lengthLength skip idx data))) ∧
      ticks' <:+ ticks ∧ heard ticks' = rest ∧
      Placed buffer'.1 idx (data.take (bufferSize.toNat - idx)) ∧
      ∀ p d, Placed buffer.1 p d → p + d.length ≤ idx → Placed buffer'.1 p d := by
  obtain ⟨buffer', ticks', hloop, hsuffix, hrest, hplaced, hkeeps⟩ :=
    bodyLoop_spec c isPublish lengthLength skip data rest buffer stream idx h
  refine ⟨buffer', ticks', ?_, hsuffix, hrest, hplaced, hkeeps⟩
  rw [Nat.min_eq_left hidx] at hloop
  have hnone : (stream.map (· ++ streamed isPublish lengthLength skip idx data) = none) ↔
      stream = none := Option.map_eq_none_iff
  rw [readBody, hloop]
  exact congrArg (fun len => Except.ok (len, _)) (if_congr (and_congr hnone Iff.rfl) rfl rfl)

/-- A body that does not come whole is given up. -/
theorem bodyLoop_none (c : PubSubClient bufferSize) (isPublish : Bool) (lengthLength skip : Nat)
    (count len idx : Nat) (h : (heard c._client.source.ticks).length < count) :
    ∃ c', bodyLoop isPublish lengthLength skip count c len idx = .ok (none, c') := by
  -- the bytes end before the count does
  induction count generalizing c len idx with
  | zero => exact absurd h (Nat.not_lt_zero _)
  | succ count ih =>
      cases hb : heard c._client.source.ticks with
      | nil =>
          obtain ⟨c', hread⟩ := readByte_none c hb
          exact ⟨c', by rw [bodyLoop, hread]⟩
      | cons b bytes =>
          obtain ⟨ticks', hread, -, hrest⟩ := readByte_spec c c.buffer c.stream hb
          have hread' : c.readByte = (some b, c.having c.buffer ticks' c.stream) := hread
          have hshort : bytes.length < count := by
            rw [hb, List.length_cons] at h
            omega
          -- passing a byte to the stream reads nothing
          obtain ⟨c1, hc1, hticks⟩ : ∃ c1, (if isPublish = true ∧ skip < idx - lengthLength - 2 then
              (c.having c.buffer ticks' c.stream).toStream b
            else c.having c.buffer ticks' c.stream) = c1 ∧ c1._client.source.ticks = ticks' := by
            split_ifs
            · exact ⟨_, rfl, rfl⟩
            · exact ⟨_, rfl, rfl⟩
          rw [bodyLoop, hread']
          dsimp only
          rw [hc1]
          by_cases hroom : len < bufferSize.toNat
          · obtain ⟨buffer', hstore⟩ := exists_store c1.buffer len [b]
              (by rw [List.length_singleton]; omega)
            rw [if_pos hroom, hstore]
            refine ih { c1 with buffer := buffer' } (len + 1) (idx + 1) ?_
            rw [hticks, hrest]
            exact hshort
          · rw [if_neg hroom]
            refine ih c1 len (idx + 1) ?_
            rw [hticks, hrest]
            exact hshort

theorem readBody_none (c : PubSubClient bufferSize) (isPublish : Bool) (lengthLength skip : Nat)
    (count len : Nat) (h : (heard c._client.source.ticks).length < count) :
    ∃ c', readBody isPublish lengthLength skip count len c = .ok (0, c') := by
  obtain ⟨c', hloop⟩ := bodyLoop_none c isPublish lengthLength skip count len len h
  exact ⟨c', by rw [readBody, hloop]; rfl⟩

/-- How far the payload of a message is from the bytes that say the length of its topic. -/
def skipOf (header hi lo : UInt8) : Nat :=
  if header &&& 2 = 0 then hi.toNat * 256 + lo.toNat
  else (hi.toNat * 256 + lo.toNat + 2) % 65536

/-- What a packet adds to the stream. -/
def payloadOf (f : Frame) : List UInt8 :=
  if f.header &&& 0xF0 = 48 then
    match f.body with
    | hi :: lo :: data => data.drop (skipOf f.header hi lo)
    | _ => []
  else []

/-- How many bytes are handled of a packet of so many. -/
def kept (bufferSize : UInt16) (stream : Option (List UInt8)) (total : Nat) : Nat :=
  if stream = none ∧ bufferSize.toNat < total then 0 else min total bufferSize.toNat

/-- The body of a message is at least the length of its topic, whatever its length says. -/
def bodyLength (header : UInt8) (length : Nat) : Nat :=
  if header &&& 0xF0 = 48 then max length 2 else length

/-- The packet that bytes begin with, the bytes of its length, and what follows it. -/
def taken : List UInt8 → Option (Frame × List UInt8 × List UInt8)
  | [] => none
  | header :: bytes =>
    match readLength 4 bytes with
    | none => none
    | some (length, rest) =>
      if bodyLength header length ≤ rest.length then
        some (⟨header, rest.take (bodyLength header length)⟩,
          bytes.take (bytes.length - rest.length), rest.drop (bodyLength header length))
      else none

/-- The header and the length are read, and stand in the buffer. -/
theorem readPacket_eq (c : PubSubClient bufferSize) (hsize : 7 ≤ bufferSize.toNat)
    {header : UInt8} {bytes rest : List UInt8} {length : Nat}
    (hbytes : heard c._client.source.ticks = header :: bytes)
    (h : readLength 4 bytes = some (length, rest)) :
    ∃ digits buffer ticks, bytes = digits ++ rest ∧ 0 < digits.length ∧ digits.length ≤ 4 ∧
      c.readPacket = readRest header (1 + digits.length) length (c.having buffer ticks c.stream) ∧
      ticks <:+ c._client.source.ticks ∧ heard ticks = rest ∧
      Placed buffer.1 0 (header :: digits) := by
  -- the header byte is read first, then the digits of the length behind it
  obtain ⟨b1, ticks1, hinto, hsuffix1, hrest1, hplaced1, -⟩ :=
    readInto_spec c c.buffer c.stream 0 (by omega) hbytes
  obtain ⟨digits, b2, ticks2, hsplit, hpos, hle, hloop, hsuffix2, hrest2, hplaced2, hkeeps2⟩ :=
    lengthLoop_spec c c.stream 3 length (by decide) (by omega) b1 1 0 (hrest1 ▸ h)
  have hstart : c.readInto 0 = .ok (true, c.having b1 ticks1 c.stream) := hinto
  have hfirst : byte b1.1 0 = .ok header := hplaced1.byte
  have hend : 4 - 3 + digits.length = 1 + digits.length := rfl
  have hlength : 0 + length * 1 = length := by omega
  rw [hend, hlength] at hloop
  refine ⟨digits, b2, ticks2, hrest1 ▸ hsplit, hpos, hle, ?_, hsuffix2.trans hsuffix1, hrest2,
    (hkeeps2 0 [header] hplaced1 (by rw [List.length_singleton])).append hplaced2⟩
  rw [readPacket, hstart]
  change (byte b1.1 0 >>= _) = _
  rw [hfirst]
  change (lengthLoop 4 (c.having b1 ticks1 c.stream) 1 0 >>= _) = _
  rw [hloop]
  rfl

/-- The rest of a message is read, which is at least the length of its topic. -/
theorem readRest_publish (c : PubSubClient bufferSize) (header hi lo : UInt8)
    (digits data rest : List UInt8) (length : Nat) (buffer : Block bufferSize.toNat)
    {ticks : List (Tick UInt8)} (hsize : 7 ≤ bufferSize.toNat) (hle : digits.length ≤ 4)
    (hpublish : header &&& 0xF0 = 48) (hlength : length - 2 = data.length)
    (hplaced : Placed buffer.1 0 (header :: digits))
    (h : heard ticks = hi :: lo :: (data ++ rest)) :
    ∃ buffer' ticks', readRest header (1 + digits.length) length (c.having buffer ticks c.stream) =
        .ok ((kept bufferSize c.stream (1 + digits.length + (hi :: lo :: data).length),
          digits.length), c.having buffer' ticks'
            (c.stream.map (· ++ payloadOf ⟨header, hi :: lo :: data⟩))) ∧
      ticks' <:+ ticks ∧ heard ticks' = rest ∧
      Placed buffer'.1 0 ((header :: (digits ++ hi :: lo :: data)).take bufferSize.toNat) := by
  -- the topic's length is read byte by byte in front of the body's loop
  obtain ⟨b3, ticks3, hinto3, hsuffix3, hrest3, hplaced3, hkeeps3⟩ :=
    readInto_spec c buffer c.stream (1 + digits.length) (by omega) h
  obtain ⟨b4, ticks4, hinto4, hsuffix4, hrest4, hplaced4, hkeeps4⟩ :=
    readInto_spec c b3 c.stream (1 + digits.length + 1) (by omega) hrest3
  obtain ⟨b5, ticks5, hread5, hsuffix5, hrest5, hplaced5, hkeeps5⟩ :=
    readBody_spec c true digits.length (skipOf header hi lo) data rest b4 c.stream
      (1 + digits.length + 2) (by omega) hrest4
  have hllen : 1 + digits.length - 1 = digits.length := by omega
  -- the later reads have left both bytes in place
  have hhi : byte b4.1 (digits.length + 1) = .ok hi := by
    rw [Nat.add_comm digits.length]
    exact (hkeeps4 _ _ hplaced3 (by rw [List.length_singleton])).byte
  have hlo : byte b4.1 (digits.length + 2) = .ok lo := by
    have h2 : digits.length + 2 = 1 + digits.length + 1 := by omega
    rw [h2]
    exact hplaced4.byte
  -- what the stream is given is what lies behind the topic and its identifier
  have hstreamed : streamed true digits.length (skipOf header hi lo) (1 + digits.length + 2)
      data = payloadOf ⟨header, hi :: lo :: data⟩ := by
    have h0 : skipOf header hi lo + digits.length + 3 - (1 + digits.length + 2) =
        skipOf header hi lo := by omega
    rw [streamed, if_pos rfl, h0, payloadOf, if_pos hpublish]
  -- a packet that does not fit is forgotten where there is no stream
  have hkept : (if c.stream = none ∧ bufferSize.toNat < 1 + digits.length + 2 + data.length
      then 0 else min (1 + digits.length + 2 + data.length) bufferSize.toNat) =
      kept bufferSize c.stream (1 + digits.length + (hi :: lo :: data).length) := by
    have hsum : 1 + digits.length + 2 + data.length =
        1 + digits.length + (hi :: lo :: data).length := by
      rw [List.length_cons, List.length_cons]
      omega
    rw [kept, hsum]
  -- the reads one after the other
  refine ⟨b5, ticks5, ?_, (hsuffix5.trans hsuffix4).trans hsuffix3, hrest5, ?_⟩
  · rw [readRest, if_pos hpublish, hllen, hinto3]
    change (readInto (c.having b3 ticks3 c.stream) (1 + digits.length + 1) >>= _) = _
    rw [hinto4]
    change (byte b4.1 (digits.length + 1) >>= _) = _
    rw [hhi]
    change (byte b4.1 (digits.length + 2) >>= _) = _
    rw [hlo]
    change (readBody true digits.length (skipOf header hi lo) (length - 2)
      (1 + digits.length + 2) (c.having b4 ticks4 c.stream) >>= _) = _
    rw [hlength, hread5, hkept, hstreamed]
    rfl
  -- the buffer holds the packet's first bytes: those of the header, the two of the length, and the
  -- rest
  · have htake : (header :: (digits ++ hi :: lo :: data)).take bufferSize.toNat =
        (header :: digits) ++ ([hi] ++ ([lo] ++
          data.take (bufferSize.toNat - (1 + digits.length + 2)))) := by
      have h2 : bufferSize.toNat - (1 + digits.length) =
          bufferSize.toNat - (1 + digits.length + 2) + 1 + 1 := by omega
      rw [← List.cons_append, List.take_append, List.take_of_length_le
        (by rw [List.length_cons]; omega), List.length_cons, Nat.add_comm digits.length, h2,
        List.take_succ_cons, List.take_succ_cons]
      rfl
    rw [htake]
    refine Placed.append ?_ (Placed.append ?_ (Placed.append ?_ ?_))
    · refine hkeeps5 _ _ (hkeeps4 _ _ (hkeeps3 _ _ hplaced ?_) ?_) ?_ <;>
        (rw [List.length_cons]; omega)
    · rw [List.length_cons, Nat.zero_add, Nat.add_comm digits.length]
      exact hkeeps5 _ _ (hkeeps4 _ _ hplaced3 (by rw [List.length_singleton]))
        (by rw [List.length_singleton]; omega)
    · rw [List.length_cons, Nat.zero_add, Nat.add_comm digits.length, List.length_singleton]
      exact hkeeps5 _ _ hplaced4 (by rw [List.length_singleton])
    · rw [List.length_cons, Nat.zero_add, Nat.add_comm digits.length, List.length_singleton,
        List.length_singleton]
      exact hplaced5

/-- The rest of any other packet is read. -/
theorem readRest_other (c : PubSubClient bufferSize) (header : UInt8)
    (digits body rest : List UInt8) (buffer : Block bufferSize.toNat) {ticks : List (Tick UInt8)}
    (hsize : 7 ≤ bufferSize.toNat) (hle : digits.length ≤ 4) (hother : ¬ header &&& 0xF0 = 48)
    (hplaced : Placed buffer.1 0 (header :: digits)) (h : heard ticks = body ++ rest) :
    ∃ buffer' ticks', readRest header (1 + digits.length) body.length
        (c.having buffer ticks c.stream) =
        .ok ((kept bufferSize c.stream (1 + digits.length + body.length), digits.length),
          c.having buffer' ticks' (c.stream.map (· ++ payloadOf ⟨header, body⟩))) ∧
      ticks' <:+ ticks ∧ heard ticks' = rest ∧
      Placed buffer'.1 0 ((header :: (digits ++ body)).take bufferSize.toNat) := by
  obtain ⟨b3, ticks3, hread3, hsuffix3, hrest3, hplaced3, hkeeps3⟩ :=
    readBody_spec c false digits.length 0 body rest buffer c.stream (1 + digits.length)
      (by omega) h
  have hllen : 1 + digits.length - 1 = digits.length := by omega
  have hstreamed : streamed false digits.length 0 (1 + digits.length) body =
      payloadOf ⟨header, body⟩ := by
    rw [streamed, if_neg Bool.false_ne_true, payloadOf, if_neg hother]
  -- a packet of another type goes to the body's loop at once
  refine ⟨b3, ticks3, ?_, hsuffix3, hrest3, ?_⟩
  · rw [readRest, if_neg hother, hllen, hread3, hstreamed]
    rfl
  · have htake : (header :: (digits ++ body)).take bufferSize.toNat = (header :: digits) ++
        body.take (bufferSize.toNat - (1 + digits.length)) := by
      rw [← List.cons_append, List.take_append, List.take_of_length_le
        (by rw [List.length_cons]; omega), List.length_cons, Nat.add_comm digits.length]
    rw [htake]
    refine Placed.append (hkeeps3 _ _ hplaced (by rw [List.length_cons]; omega)) ?_
    rw [List.length_cons, Nat.zero_add, Nat.add_comm digits.length]
    exact hplaced3

theorem exists_two {bytes : List UInt8} (h : 2 ≤ bytes.length) :
    ∃ hi lo data, bytes = hi :: lo :: data := by
  cases bytes with
  | nil => exact absurd h (Nat.not_succ_le_zero 1)
  | cons hi bytes =>
      cases bytes with
      | nil => exact absurd h (Nat.lt_irrefl 1)
      | cons lo data => exact ⟨hi, lo, data, rfl⟩

/-- A packet is taken off the stream, and its bytes stand in the buffer, as far as there is
    room. -/
theorem readPacket_spec (c : PubSubClient bufferSize) (f : Frame) (digits rest : List UInt8)
    (hsize : 7 ≤ bufferSize.toNat)
    (h : taken (heard c._client.source.ticks) = some (f, digits, rest)) :
    ∃ buffer ticks, c.readPacket =
        .ok ((kept bufferSize c.stream (1 + digits.length + f.body.length), digits.length),
          c.having buffer ticks (c.stream.map (· ++ payloadOf f))) ∧
      ticks <:+ c._client.source.ticks ∧ heard ticks = rest ∧ 0 < digits.length ∧
      digits.length ≤ 4 ∧ (f.header &&& 0xF0 = 48 → 2 ≤ f.body.length) ∧
      Placed buffer.1 0 ((f.header :: (digits ++ f.body)).take bufferSize.toNat) := by
  cases hbytes : heard c._client.source.ticks with
  | nil => rw [hbytes] at h; cases h
  | cons header bytes =>
      rw [hbytes, taken] at h
      cases hread : readLength 4 bytes with
      | none => rw [hread] at h; cases h
      | some r =>
          obtain ⟨length, after⟩ := r
          rw [hread] at h
          dsimp only at h
          split_ifs at h with hwhole
          rw [Option.some.injEq, Prod.mk.injEq, Prod.mk.injEq] at h
          obtain ⟨rfl, hdigits, rfl⟩ := h
          obtain ⟨digits', b, ticks, hsplit, hpos, hle, hpacket, hsuffix, hrest, hplaced⟩ :=
            readPacket_eq c hsize hbytes hread
          -- the digits that the loop found are those of the frame
          obtain rfl : digits' = digits := by
            rw [← hdigits, hsplit, List.length_append, Nat.add_sub_cancel, List.take_left' rfl]
          have hlength : (after.take (bodyLength header length)).length =
              bodyLength header length := by
            rw [List.length_take, Nat.min_eq_left hwhole]
          rw [← List.take_append_drop (bodyLength header length) after] at hrest
          rw [hpacket]
          -- a PUBLISH announces its topic's length in its first two bytes
          by_cases hpublish : header &&& 0xF0 = 48
          · rw [bodyLength, if_pos hpublish] at hlength hrest ⊢
            obtain ⟨hi, lo, data, hbody⟩ :=
              exists_two (hlength.symm ▸ Nat.le_max_right length 2)
            rw [hbody, List.length_cons, List.length_cons] at hlength
            rw [hbody] at hrest ⊢
            obtain ⟨b', ticks', hrest', hsuffix', hheard, hplaced'⟩ :=
              readRest_publish c header hi lo digits' data _ length b hsize hle hpublish
                (by omega) hplaced hrest
            exact ⟨b', ticks', hrest', hsuffix'.trans hsuffix, hheard, hpos, hle,
              fun _ => Nat.le_add_left 2 data.length, hplaced'⟩
          · rw [bodyLength, if_neg hpublish] at hlength hrest ⊢
            obtain ⟨b', ticks', hrest', hsuffix', hheard, hplaced'⟩ :=
              readRest_other c header digits' (after.take length) _ b hsize hle hpublish hplaced
                hrest
            rw [hlength] at hrest'
            refine ⟨b', ticks', ?_, hsuffix'.trans hsuffix, hheard, hpos, hle,
              fun h' => absurd h' hpublish, hplaced'⟩
            rw [hlength]
            exact hrest'

/-- What does not come whole is passed over. -/
theorem readPacket_none (c : PubSubClient bufferSize) (hsize : 7 ≤ bufferSize.toNat)
    (h : taken (heard c._client.source.ticks) = none) :
    ∃ llen c', c.readPacket = .ok ((0, llen), c') := by
  -- the bytes end in the header, in the length, in the topic's length or in the body
  cases hbytes : heard c._client.source.ticks with
  | nil =>
      obtain ⟨c', hinto⟩ := readInto_none c 0 hbytes
      exact ⟨0, c', by rw [readPacket, hinto]; rfl⟩
  | cons header bytes =>
      rw [hbytes, taken] at h
      cases hread : readLength 4 bytes with
      | none =>
          obtain ⟨b1, ticks1, hinto, -, hrest1, hplaced1, -⟩ :=
            readInto_spec c c.buffer c.stream 0 (by omega) hbytes
          have hstart : c.readInto 0 = .ok (true, c.having b1 ticks1 c.stream) := hinto
          have hfirst : byte b1.1 0 = .ok header := hplaced1.byte
          obtain ⟨c', hloop⟩ := lengthLoop_none (c.having b1 ticks1 c.stream) 4 (Nat.le_refl 4)
            (by omega) 1 0 (hrest1 ▸ hread)
          refine ⟨0, c', ?_⟩
          rw [readPacket, hstart]
          change (byte b1.1 0 >>= _) = _
          rw [hfirst]
          change (lengthLoop 4 (c.having b1 ticks1 c.stream) 1 0 >>= _) = _
          rw [hloop]
          rfl
      | some r =>
          obtain ⟨length, after⟩ := r
          rw [hread] at h
          dsimp only at h
          split_ifs at h with hwhole
          obtain ⟨digits, b, ticks, -, hpos, hle, hpacket, -, hrest, -⟩ :=
            readPacket_eq c hsize hbytes hread
          have hllen : 1 + digits.length - 1 = digits.length := by omega
          rw [hpacket, readRest, hllen]
          -- from here on the packet's length is known, and more is announced than comes
          by_cases hpublish : header &&& 0xF0 = 48
          · rw [bodyLength, if_pos hpublish] at hwhole
            rw [if_pos hpublish]
            cases after with
            | nil =>
                obtain ⟨c', hinto⟩ :=
                  readInto_none (c.having b ticks c.stream) (1 + digits.length) hrest
                exact ⟨0, c', by rw [hinto]; rfl⟩
            | cons hi after =>
                obtain ⟨b3, ticks3, hinto3, -, hrest3, hplaced3, -⟩ :=
                  readInto_spec c b c.stream (1 + digits.length) (by omega) hrest
                rw [hinto3]
                cases after with
                | nil =>
                    obtain ⟨c', hinto⟩ :=
                      readInto_none (c.having b3 ticks3 c.stream) (1 + digits.length + 1) hrest3
                    refine ⟨0, c', ?_⟩
                    change (readInto (c.having b3 ticks3 c.stream) (1 + digits.length + 1) >>= _) =
                      _
                    rw [hinto]
                    rfl
                | cons lo after =>
                    obtain ⟨b4, ticks4, hinto4, -, hrest4, hplaced4, hkeeps4⟩ :=
                      readInto_spec c b3 c.stream (1 + digits.length + 1) (by omega) hrest3
                    have hhi : byte b4.1 (digits.length + 1) = .ok hi := by
                      rw [Nat.add_comm digits.length]
                      exact (hkeeps4 _ _ hplaced3 (by rw [List.length_singleton])).byte
                    have hlo : byte b4.1 (digits.length + 2) = .ok lo := by
                      have h2 : digits.length + 2 = 1 + digits.length + 1 := by omega
                      rw [h2]
                      exact hplaced4.byte
                    obtain ⟨c', hbody⟩ := readBody_none (c.having b4 ticks4 c.stream) true
                      digits.length (skipOf header hi lo) (length - 2) (1 + digits.length + 2) (by
                        change (heard ticks4).length < _
                        rw [List.length_cons, List.length_cons] at hwhole
                        rw [hrest4]
                        omega)
                    refine ⟨digits.length, c', ?_⟩
                    change (readInto (c.having b3 ticks3 c.stream) (1 + digits.length + 1) >>= _) =
                      _
                    rw [hinto4]
                    change (byte b4.1 (digits.length + 1) >>= _) = _
                    rw [hhi]
                    change (byte b4.1 (digits.length + 2) >>= _) = _
                    rw [hlo]
                    change (readBody true digits.length (skipOf header hi lo) (length - 2)
                      (1 + digits.length + 2) (c.having b4 ticks4 c.stream) >>= _) = _
                    rw [hbody]
                    rfl
          · rw [bodyLength, if_neg hpublish] at hwhole
            obtain ⟨c', hbody⟩ := readBody_none (c.having b ticks c.stream) false digits.length 0
              length (1 + digits.length) (by
                change (heard ticks).length < _
                rw [hrest]
                omega)
            refine ⟨digits.length, c', ?_⟩
            rw [if_neg hpublish, hbody]
            rfl

/-- A packet of MQTT that comes without a silence. -/
theorem readPacket_frame (c : PubSubClient bufferSize) (f : Frame) (hsmall : f.Small)
    (hsize : 7 ≤ bufferSize.toNat) (hbody : f.header &&& 0xF0 = 48 → 2 ≤ f.body.length)
    {rest : List UInt8} (hprompt : Prompt c._client.source.ticks)
    (hitems : items c._client.source.ticks = f.encode ++ rest) :
    ∃ buffer ticks, c.readPacket = .ok ((kept bufferSize c.stream f.encode.length,
        (lengthBytes 4 f.body.length).length),
          c.having buffer ticks (c.stream.map (· ++ payloadOf f))) ∧
      Prompt ticks ∧ items ticks = rest ∧
      Placed buffer.1 0 (f.encode.take bufferSize.toNat) := by
  -- an encoded frame is taken whole, with its own digits
  have hread := MqttPackets.readLength_lengthBytes 3 f.body.length (f.body ++ rest) hsmall
  have hlength : bodyLength f.header f.body.length = f.body.length := by
    rw [bodyLength]
    split_ifs with hpublish
    · exact Nat.max_eq_left (hbody hpublish)
    · rfl
  have htaken : taken (heard c._client.source.ticks) =
      some (f, lengthBytes 4 f.body.length, rest) := by
    rw [heard_of_prompt hprompt, hitems, Frame.encode, List.cons_append, List.append_assoc, taken,
      hread]
    dsimp only
    have hdigits : (lengthBytes 4 f.body.length ++ (f.body ++ rest)).length -
        (f.body ++ rest).length = (lengthBytes 4 f.body.length).length := by
      rw [List.length_append, Nat.add_sub_cancel]
    rw [hlength, if_pos (by rw [List.length_append]; omega), List.take_left' rfl,
      List.drop_left' rfl, hdigits, List.take_left' rfl]
  obtain ⟨b, ticks, hpacket, hsuffix, hrest, -, -, -, hplaced⟩ :=
    readPacket_spec c f _ rest hsize htaken
  have hprompt' := hprompt.of_suffix hsuffix
  have htotal : 1 + (lengthBytes 4 f.body.length).length + f.body.length = f.encode.length := by
    rw [Frame.encode, List.length_cons, List.length_append]
    omega
  rw [htotal] at hpacket
  exact ⟨b, ticks, hpacket, hprompt', (heard_of_prompt hprompt').symm.trans hrest, hplaced⟩

end PubSubClient

end Mqtt

end ArduinoBeken
