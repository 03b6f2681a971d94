import ArduinoBeken.Mqtt.Delivery

/-!
# Any Broker

What the client does with its buffer whatever the broker sends, in whatever state it is and
whatever becomes of its writes. Reading a packet never leaves the buffer. Handling one does when
it is a message whose topic is said to be longer than the packet: the lengths in the packet are
not compared with each other. Of the calls of the application, three check for less room than
they use, or for none.

These are all: a call of the client leaves its buffer exactly if it is one of them, and so does
a run.

## Main definitions

* `Trap`: Bytes that make the client leave its buffer.
* `Overruns`: Calls that leave the buffer.

## Theorems

* `request_ends`, `call_ends`: Calls of the callback.
* `handlePublish_ends_iff`, `receive_ends_iff`: Packets that come.
* `step_ends_iff`: One call.
* `run_ends_iff`: A run.
-/

namespace ArduinoBeken

namespace Mqtt

open Arrivals
open CheckedBytes
open MqttPackets (Packet Frame lengthBytes readLength text word)

variable {bufferSize : UInt16}

namespace PubSubClient

/-! ### Calls that write -/

theorem writeString_ends {β : Type} (s : CString) (b : Block bufferSize.toNat) (pos : Nat)
    (f : Block bufferSize.toNat → Except Fault β) {P : Prop} (hf : ∀ b', Ends (f b') ↔ P) :
    Ends (writeString s b pos >>= f) ↔ pos + 2 + s.1.length ≤ bufferSize.toNat ∧ P := by
  rw [ends_bind]
  constructor
  · rintro ⟨b', hwrite, hends⟩
    have hwritten : Ends (writeString s b pos) := ⟨b', hwrite⟩
    rw [writeString, ends_bind] at hwritten
    obtain ⟨b1, hstore, -⟩ := hwritten
    exact ⟨((store_eq_ok b _ _ b1).1 hstore).1, (hf b').1 hends⟩
  · rintro ⟨hle, hp⟩
    obtain ⟨b', hwrite, -⟩ := writeString_spec s b pos hle
    exact ⟨b', hwrite, (hf b').2 hp⟩

/-- The header has room in front of a body of any length. -/
theorem buildHeader_ends (header : UInt8) (b : Block bufferSize.toNat) (length : Nat)
    (hsize : 5 ≤ bufferSize.toNat) :
    ∃ hlen b', buildHeader header b length = .ok (hlen, b') ∧ hlen ≤ 4 := by
  -- the digits are those of a word, so three bytes hold them
  have hle : (lengthDigits 3 (length % 65536)).length ≤ 3 := by
    rw [lengthDigits_eq]
    exact MqttPackets.length_lengthBytes_le 3 _
  obtain ⟨b1, hstore1⟩ := exists_store b (4 - (lengthDigits 3 (length % 65536)).length) [header]
    (by rw [List.length_singleton]; omega)
  obtain ⟨b2, hstore2⟩ := exists_store b1 (5 - (lengthDigits 3 (length % 65536)).length)
    (lengthDigits 3 (length % 65536)) (by omega)
  refine ⟨_, b2, ?_, Nat.succ_le_succ hle⟩
  rw [buildHeader, hstore1]
  change (store b1 (5 - (lengthDigits 3 (length % 65536)).length) _ >>= _) = _
  rw [hstore2]
  rfl

theorem publish_ends (c : PubSubClient bufferSize) (topic : CString) (payload : List UInt8)
    (retained : Bool) (now : UInt32) (hpayload : payload.length < 2 ^ 31) :
    Ends (c.publish topic payload retained now) := by
  by_cases hroom : bufferSize.toNat < 7 + topic.1.length + payload.length
  · exact ⟨_, publish_refused topic payload retained now hpayload hroom⟩
  · by_cases hup : c.Up
    · obtain ⟨buffer, hpublish⟩ := publish_spec hup topic payload retained now (by omega)
      exact ⟨_, hpublish⟩
    · rw [publish, connected_of_not_up hup]
      exact ends_ok _

/-- A message whose payload does not go through the buffer needs room for its topic. -/
theorem publish_P_ends_iff (c : PubSubClient bufferSize) (topic : CString) (payload : List UInt8)
    (retained : Bool) (now : UInt32) (hsize : 7 ≤ bufferSize.toNat) :
    Ends (c.publish_P topic payload retained now) ↔ ¬ (c.Up ∧ bufferSize.toNat <
      3 + (lengthDigits 5 ((payload.length + 2 + topic.1.length) % 2 ^ 32)).length +
        topic.1.length) := by
  by_cases hup : c.Up
  -- the count's digits go to the buffer from its second byte on
  · obtain ⟨digits, hdigits⟩ : ∃ digits, digits =
      lengthDigits 5 ((payload.length + 2 + strnlen topic bufferSize.toNat) % 2 ^ 32) := ⟨_, rfl⟩
    have hle : digits.length ≤ 5 := by
      rw [hdigits, lengthDigits_eq]
      exact MqttPackets.length_lengthBytes_le 5 _
    -- the call ends exactly if each of its four accesses stays inside the buffer
    have hiff : Ends (c.publish_P topic payload retained now) ↔
        0 + 1 ≤ bufferSize.toNat ∧ 1 + digits.length ≤ bufferSize.toNat ∧
          1 + digits.length + 2 + topic.1.length ≤ bufferSize.toNat ∧
          0 + (1 + digits.length + 2 + topic.1.length) ≤ bufferSize.toNat ∧ True := by
      rw [publish_P, connected_of_up hup]
      dsimp only
      rw [if_pos rfl, ← hdigits]
      refine ends_store _ _ _ _ fun b1 _ => ?_
      refine ends_store _ _ _ _ fun b2 _ => ?_
      refine writeString_ends _ _ _ _ fun b3 => ?_
      exact ends_load b3 _ _ _ fun data _ => iff_of_true (ends_ok _) True.intro
    rw [hiff]
    by_cases hlong : topic.1.length ≤ bufferSize.toNat
    · have hlen : strnlen topic bufferSize.toNat = topic.1.length := Nat.min_eq_left hlong
      rw [hlen] at hdigits
      rw [← hdigits]
      have hnot : ∀ k : Nat, ¬ (c.Up ∧ bufferSize.toNat < k) ↔ k ≤ bufferSize.toNat :=
        fun k => ⟨fun h => Nat.le_of_not_lt fun h' => h ⟨hup, h'⟩, fun h h' => by omega⟩
      rw [hnot, and_true]
      omega
    -- a topic longer than the buffer overruns it before the digits matter
    · refine ⟨fun h => absurd h.2.2.1 (by omega), fun h => absurd ⟨hup, ?_⟩ h⟩
      omega
  · refine iff_of_true ?_ fun h => hup h.1
    rw [publish_P, connected_of_not_up hup]
    exact ends_ok _

theorem beginPublish_ends_iff (c : PubSubClient bufferSize) (topic : CString) (plength : Nat)
    (retained : Bool) (now : UInt32) (hsize : 7 ≤ bufferSize.toNat) :
    Ends (c.beginPublish topic plength retained now) ↔
      ¬ (c.Up ∧ bufferSize.toNat < 7 + topic.1.length) := by
  by_cases hup : c.Up
  -- the topic is written behind the five bytes that the header may take
  · have hiff : Ends (c.beginPublish topic plength retained now) ↔
        5 + 2 + topic.1.length ≤ bufferSize.toNat ∧ 7 + topic.1.length ≤ bufferSize.toNat := by
      rw [beginPublish, connected_of_up hup]
      dsimp only
      rw [if_pos rfl]
      refine writeString_ends _ _ _ _ fun b1 => ?_
      obtain ⟨hlen, b2, hbuild, hle⟩ := buildHeader_ends (if retained then 48 ||| 1 else 48) b1
        (plength + (2 + topic.1.length)) (by omega)
      rw [hbuild]
      refine (ends_load b2 (5 - hlen) (2 + topic.1.length + hlen) _ fun data _ =>
        iff_of_true (ends_ok _) True.intro).trans ?_
      rw [and_true]
      omega
    rw [hiff]
    exact ⟨fun h h' => by omega, fun h => ⟨by by_contra h'; exact h ⟨hup, by omega⟩,
      by by_contra h'; exact h ⟨hup, by omega⟩⟩⟩
  · refine iff_of_true ?_ fun h => hup h.1
    rw [beginPublish, connected_of_not_up hup]
    exact ends_ok _

theorem publishInParts_ends_iff (c : PubSubClient bufferSize) (topic : CString)
    (parts : List (List UInt8)) (retained : Bool) (now : UInt32) (hsize : 7 ≤ bufferSize.toNat) :
    Ends (c.publishInParts topic parts retained now) ↔
      ¬ (c.Up ∧ bufferSize.toNat < 7 + topic.1.length) := by
  rw [← beginPublish_ends_iff c topic parts.flatten.length retained now hsize, publishInParts,
    ends_bind]
  constructor
  · rintro ⟨r, hr, -⟩
    exact ⟨r, hr⟩
  · rintro ⟨⟨begun, c'⟩, hr⟩
    refine ⟨_, hr, ?_⟩
    dsimp only
    split_ifs
    · exact ends_ok _
    · exact ends_ok _

theorem subscribe_ends_iff (c : PubSubClient bufferSize) (topic : CString) (qos : UInt8)
    (now : UInt32) : Ends (c.subscribe topic qos now) ↔
      ¬ (c.Up ∧ qos ≤ 1 ∧ bufferSize.toNat = 9 + topic.1.length) := by
  -- a request that is refused touches no byte
  by_cases hrefused : 1 < qos ∨ bufferSize.toNat < 9 + topic.1.length
  · refine iff_of_true ⟨_, subscribe_refused topic qos now hrefused⟩ ?_
    rintro ⟨-, hqos, hroom⟩
    rcases hrefused with h | h
    · exact absurd hqos (UInt8.not_le.2 h)
    · omega
  · have hqos : qos ≤ 1 := UInt8.not_lt.1 fun h => hrefused (Or.inl h)
    have hroom : ¬ bufferSize.toNat < 9 + topic.1.length := fun h => hrefused (Or.inr h)
    by_cases hup : c.Up
    -- the size test allows one byte too little: at equality the last store falls behind the buffer
    · by_cases hexact : bufferSize.toNat = 9 + topic.1.length
      · refine iff_of_false ?_ fun h => h ⟨hup, hqos, hexact⟩
        rw [subscribe_overrun hup topic qos now hqos hexact]
        rintro ⟨a, ha⟩
        cases ha
      · obtain ⟨buffer, hsubscribe⟩ := subscribe_spec hup topic qos now hqos (by omega)
        exact iff_of_true ⟨_, hsubscribe⟩ fun h => hexact h.2.2
    -- off the connection nothing is written
    · refine iff_of_true ?_ fun h => hup h.1
      have hlen : strnlen topic bufferSize.toNat = topic.1.length := Nat.min_eq_left (by omega)
      rw [subscribe, if_neg (UInt8.not_lt.2 hqos), hlen, if_neg hroom, connected_of_not_up hup]
      exact ends_ok _

theorem unsubscribe_ends (c : PubSubClient bufferSize) (topic : CString) (now : UInt32) :
    Ends (c.unsubscribe topic now) := by
  by_cases hroom : bufferSize.toNat < 9 + topic.1.length
  · exact ⟨_, unsubscribe_refused topic now hroom⟩
  · by_cases hup : c.Up
    · obtain ⟨buffer, hunsubscribe⟩ := unsubscribe_spec hup topic now (by omega)
      exact ⟨_, hunsubscribe⟩
    · have hlen : strnlen topic bufferSize.toNat = topic.1.length := Nat.min_eq_left (by omega)
      rw [unsubscribe, hlen, if_neg hroom, connected_of_not_up hup]
      exact ends_ok _

theorem disconnect_ends (c : PubSubClient bufferSize) (now : UInt32)
    (hsize : 2 ≤ bufferSize.toNat) : Ends (c.disconnect now) := by
  obtain ⟨b, hstore⟩ := exists_store c.buffer 0 [224, 0] hsize
  rw [disconnect, hstore]
  exact ends_ok _

/-! ### Calls of the callback -/

theorem request_ends (c : PubSubClient bufferSize) (now : UInt32) (r : Request)
    (hr : Safe bufferSize r) (hsize : 2 ≤ bufferSize.toNat) : Ends (c.request now r) := by
  cases r with
  | publish topic payload retained =>
      exact (ends_map _ _).2 (publish_ends c topic payload retained now hr)
  | subscribe topic qos =>
      refine (ends_map _ _).2 ((subscribe_ends_iff c topic qos now).2 fun h => ?_)
      exact hr.elim (fun h' => absurd h.2.1 (UInt8.not_le.2 h')) fun h' => h' h.2.2
  | unsubscribe topic => exact (ends_map _ _).2 (unsubscribe_ends c topic now)
  | disconnect => exact disconnect_ends c now hsize

theorem call_ends (callback : Callback) (c : PubSubClient bufferSize)
    (hsafe : SafeCallback bufferSize callback) (message : Message) (now : UInt32)
    (hmessage : message.payload.length ≤ bufferSize.toNat) (hsize : 2 ≤ bufferSize.toNat) :
    Ends (call callback c message now) := by
  -- the requests one after the other, each from the state the former one left
  have hall : ∀ (rs : List Request) (c : PubSubClient bufferSize),
      (∀ r ∈ rs, Safe bufferSize r) → Ends (rs.foldlM (fun c r => c.request now r) c) := by
    intro rs
    induction rs with
    | nil => exact fun c _ => ends_ok c
    | cons r rs ih =>
        intro c hrs
        obtain ⟨c', hstep⟩ := request_ends c now r (hrs r List.mem_cons_self) hsize
        rw [List.foldlM_cons, hstep]
        exact ih c' fun r' hr' => hrs r' (List.mem_cons_of_mem r hr')
  exact hall _ _ (hsafe message hmessage)

/-! ### Packets that come -/

theorem memmove_ends {β : Type} (b : Block bufferSize.toNat) (dest src count : Nat)
    (f : Block bufferSize.toNat → Except Fault β) {P : Prop}
    (hf : ∀ b', (∀ p d, Placed b.1 p d → p + d.length ≤ dest → Placed b'.1 p d) →
      (Ends (f b') ↔ P)) :
    Ends (memmove b dest src count >>= f) ↔
      src + count ≤ bufferSize.toNat ∧ dest + count ≤ bufferSize.toNat ∧ P := by
  -- a move is a load and a store
  have hstep : (memmove b dest src count >>= f) =
      load b.1 src count >>= fun data => store b dest data.1 >>= f := by
    rw [memmove]
    cases load b.1 src count with
    | error e => rfl
    | ok data => rfl
  rw [hstep]
  refine ends_load b _ _ _ fun data _ => ?_
  exact (ends_store _ _ _ _ fun b' hstore => hf b' fun p d hp hle =>
    hp.store hstore (Or.inl hle)).trans (by rw [data.2])

/-- Where the payload of a message begins that says its topic is so long. -/
def payloadFrom (header : UInt8) (llen tl : Nat) : Nat :=
  llen + 3 + tl + if header &&& 6 = 2 then 2 else 0

/-- A payload that begins behind the end of the packet is taken to be huge. -/
theorem unsigned_le_iff (len k : Nat) (hlen : len ≤ bufferSize.toNat) (hk : k ≤ 2 ^ 20) :
    k + unsigned ((len : Int) - k) ≤ bufferSize.toNat ↔ k ≤ len := by
  have hsize := bufferSize.toNat_lt
  rw [unsigned]
  omega

/-- A message ends behind its topic, or its handling leaves the buffer. -/
theorem handlePublish_ends_iff (callback : Callback) (c : PubSubClient bufferSize)
    (hsafe : SafeCallback bufferSize callback) (header hi lo : UInt8) (len llen : Nat)
    (t now : UInt32) (hheader : Placed c.buffer.1 0 [header])
    (hhi : byte c.buffer.1 (llen + 1) = .ok hi) (hlo : byte c.buffer.1 (llen + 2) = .ok lo)
    (hlen : len ≤ bufferSize.toNat) (hsize : 7 ≤ bufferSize.toNat) :
    Ends (c.handlePublish callback len llen t now) ↔
      payloadFrom header llen (hi.toNat * 256 + lo.toNat) ≤ len := by
  have hhi' := hi.toNat_lt
  have hlo' := lo.toNat_lt
  have hllen : llen + 2 < bufferSize.toNat := by
    have := byte_lt _ _ _ ((byte_eq_ok _ _ _).1 hlo)
    rwa [c.buffer.2] at this
  have hsize' := bufferSize.toNat_lt
  obtain ⟨tl, htl⟩ : ∃ tl, tl = hi.toNat * 256 + lo.toNat := ⟨_, rfl⟩
  -- whatever the callback does with the message, it ends
  have hcall : ∀ (c : PubSubClient bufferSize) (topic : List UInt8) (k : Nat)
      (payload : Block k), k ≤ bufferSize.toNat → Ends (call callback c ⟨topic, payload.1⟩ now) :=
    fun c topic k payload hk => call_ends callback c hsafe _ now (by rw [payload.2]; exact hk)
      (by omega)
  rw [handlePublish, hhi]
  change Ends (byte c.buffer.1 (llen + 2) >>= _) ↔ _
  rw [hlo]
  change Ends (memmove c.buffer (llen + 2) (llen + 3) (hi.toNat * 256 + lo.toNat) >>= _) ↔ _
  rw [← htl]
  -- the identifier stands between topic and payload only where the flags announce a QoS
  by_cases hid : header &&& 6 = 2
  · refine (memmove_ends _ _ _ _ _ (P := llen + 2 + tl + 1 ≤ bufferSize.toNat ∧
      llen + 3 + tl < bufferSize.toNat ∧ llen + 3 + tl + 1 < bufferSize.toNat ∧
      llen + 3 + tl + 2 + unsigned ((len : Int) - (llen + 3 + tl + 2 : Nat)) ≤
        bufferSize.toNat ∧ True) fun b1 hkeeps => ?_).trans ?_
    · refine ends_store _ _ _ _ fun b2 hstore => ?_
      have hfirst : byte b2.1 0 = .ok header :=
        ((hkeeps 0 [header] hheader (by rw [List.length_singleton]; omega)).store hstore
          (Or.inl (by rw [List.length_singleton]; omega))).byte
      have hcount : (len : Int) - llen - 3 - tl - 2 = len - (llen + 3 + tl + 2 : Nat) := by
        omega
      rw [hfirst]
      change Ends (if header &&& 6 = 2 then _ else _) ↔ _
      rw [if_pos hid, hcount]
      refine ends_byte b2 _ _ fun hi' => ends_byte b2 _ _ fun lo' => ?_
      refine ends_load b2 _ _ _ fun payload hle => iff_of_true ?_ True.intro
      obtain ⟨c', hended⟩ := hcall { c with buffer := b2 } ((b2.1.drop (llen + 2)).takeWhile
        (· ≠ 0)) _ payload (by omega)
      obtain ⟨b3, hstore3⟩ := exists_store c'.buffer 0 [64, 2, hi', lo'] (by change 4 ≤ _; omega)
      rw [hended]
      change Ends (store c'.buffer 0 [64, 2, hi', lo'] >>= _)
      rw [hstore3]
      exact ends_ok _
    -- the count that is below zero is huge as an unsigned one, and its load fails
    · rw [unsigned_le_iff len (llen + 3 + tl + 2) hlen (by omega), payloadFrom, if_pos hid,
        and_true]
      omega
  · refine (memmove_ends _ _ _ _ _ (P := llen + 2 + tl + 1 ≤ bufferSize.toNat ∧
      llen + 3 + tl + unsigned ((len : Int) - (llen + 3 + tl : Nat)) ≤
        bufferSize.toNat ∧ True) fun b1 hkeeps => ?_).trans ?_
    · refine ends_store _ _ _ _ fun b2 hstore => ?_
      have hfirst : byte b2.1 0 = .ok header :=
        ((hkeeps 0 [header] hheader (by rw [List.length_singleton]; omega)).store hstore
          (Or.inl (by rw [List.length_singleton]; omega))).byte
      have hcount : (len : Int) - llen - 3 - tl = len - (llen + 3 + tl : Nat) := by
        omega
      rw [hfirst]
      change Ends (if header &&& 6 = 2 then _ else _) ↔ _
      rw [if_neg hid, hcount]
      refine ends_load b2 _ _ _ fun payload hle => iff_of_true ?_ True.intro
      exact hcall { c with buffer := b2 } _ _ payload (by omega)
    -- the same without the two bytes of the identifier
    · rw [unsigned_le_iff len (llen + 3 + tl) hlen (by omega), payloadFrom, if_neg hid,
        and_true]
      omega

/-- The bytes begin with a message whose topic is said to reach behind what is handled of it. -/
def Trap (bufferSize : UInt16) (stream : Option (List UInt8)) (bytes : List UInt8) : Prop :=
  match taken bytes with
  | some (⟨header, hi :: lo :: data⟩, digits, _) =>
    header &&& 0xF0 = 48 ∧
      0 < kept bufferSize stream (1 + digits.length + (hi :: lo :: data).length) ∧
      kept bufferSize stream (1 + digits.length + (hi :: lo :: data).length) <
        payloadFrom header digits.length (hi.toNat * 256 + lo.toNat)
  | _ => False

instance (stream : Option (List UInt8)) (bytes : List UInt8) :
    Decidable (Trap bufferSize stream bytes) := by
  unfold Trap
  split <;> infer_instance

theorem kept_le (stream : Option (List UInt8)) (total : Nat) :
    kept bufferSize stream total ≤ bufferSize.toNat := by
  rw [kept]
  split_ifs
  · exact Nat.zero_le _
  · exact Nat.min_le_right _ _

/-- A packet that is no message, or of which nobody is told, is handled in the buffer. -/
theorem handle_ends (callback : Option Callback) (c : PubSubClient bufferSize) (header : UInt8)
    (len llen : Nat) (t now : UInt32) (hheader : byte c.buffer.1 0 = .ok header)
    (h : ¬ (header &&& 0xF0 = 48 ∧ callback.isSome = true)) (hsize : 7 ≤ bufferSize.toNat) :
    Ends (handle callback c len llen t now) := by
  -- apart from a PUBLISH, only the answer to a ping writes
  obtain ⟨b, hstore⟩ := exists_store c.buffer 0 [208, 0] (by change 2 ≤ _; omega)
  change Ends (byte c.buffer.1 0 >>= _)
  rw [hheader]
  change Ends (if header &&& 0xF0 = 48 then _ else _)
  split_ifs with hpublish hping hpong
  · cases callback with
    | none => exact ends_ok _
    | some callback => exact absurd ⟨hpublish, rfl⟩ h
  · rw [hstore]
    exact ends_ok _
  · exact ends_ok _
  · exact ends_ok _

/-- What the bytes that come are decides whether the buffer is left. -/
theorem readPacket_handle_ends_iff (callback : Option Callback) (c : PubSubClient bufferSize)
    (hsafe : ∀ f ∈ callback, SafeCallback bufferSize f) (t now : UInt32)
    (hsize : 7 ≤ bufferSize.toNat) :
    Ends (do
      let ((len, llen), c) ← c.readPacket
      if 0 < len then
        let c ← handle callback c len llen t now
        return (true, c)
      else
        let (up, c) := c.connected
        return (up, c)) ↔
      ¬ (callback.isSome = true ∧ Trap bufferSize c.stream (heard c._client.source.ticks)) := by
  -- an incomplete packet is given up before its handler runs
  cases htaken : taken (heard c._client.source.ticks) with
  | none =>
      obtain ⟨llen, c', hread⟩ := readPacket_none c hsize htaken
      refine iff_of_true ?_ fun h => ?_
      · rw [hread]
        exact ends_ok _
      · rw [Trap, htaken] at h
        exact h.2
  | some r =>
      obtain ⟨f, digits, rest⟩ := r
      obtain ⟨b, ticks, hread, -, -, hpos, hle, hbody, hplaced⟩ :=
        -- what was kept of the packet is what the handler is told
        readPacket_spec c f digits rest hsize htaken
      obtain ⟨len, hlen⟩ : ∃ len, len =
        kept bufferSize c.stream (1 + digits.length + f.body.length) := ⟨_, rfl⟩
      have hlen' : len ≤ bufferSize.toNat := hlen ▸ kept_le c.stream _
      obtain ⟨c', hc'⟩ : ∃ c', c' = c.having b ticks (c.stream.map (· ++ payloadOf f)) := ⟨_, rfl⟩
      have hbuffer : c'.buffer = b := by rw [hc']; rfl
      -- the bytes of the packet that have room are in the buffer
      have hbytes : ∀ i x, (f.header :: (digits ++ f.body))[i]? = some x →
          i < bufferSize.toNat → byte c'.buffer.1 i = .ok x := by
        intro i x hx hi
        have hlt := (List.getElem?_eq_some_iff.1 hx).1
        have hat := hplaced i (by rw [List.length_take]; omega)
        rw [List.getElem?_take, if_pos hi, hx, Nat.zero_add] at hat
        rw [hbuffer]
        exact (byte_eq_ok _ _ _).2 hat
      have hheader := hbytes 0 f.header rfl (by omega)
      rw [← hlen, ← hc'] at hread
      -- only a packet of some length reaches the handler
      have hends : Ends (if 0 < len then do
          let c ← handle callback c' len digits.length t now
          return (true, c)
        else
          let (up, c) := c'.connected
          return (up, c) : Except Fault (Bool × PubSubClient bufferSize)) ↔
          (0 < len → Ends (handle callback c' len digits.length t now)) := by
        split_ifs with h0
        · rw [ends_bind]
          exact ⟨fun ⟨c'', hc'', _⟩ _ => ⟨c'', hc''⟩, fun h =>
            (h h0).elim fun c'' hc'' => ⟨c'', hc'', ends_ok _⟩⟩
        · exact iff_of_true (ends_ok _) fun h => absurd h h0
      rw [hread]
      refine hends.trans ?_
      -- only a PUBLISH with a callback reads by lengths of its own
      by_cases hmessage : f.header &&& 0xF0 = 48 ∧ callback.isSome = true
      · obtain ⟨hpublish, hsome⟩ := hmessage
        obtain ⟨callback, rfl⟩ := Option.isSome_iff_exists.1 hsome
        obtain ⟨header, body⟩ := f
        obtain ⟨hi, lo, data, rfl⟩ := exists_two (hbody hpublish)
        have hhi : byte c'.buffer.1 (digits.length + 1) = .ok hi := by
          refine hbytes _ _ ?_ (by omega)
          rw [List.getElem?_cons_succ, List.getElem?_append_right (Nat.le_refl _),
            Nat.sub_self]
          rfl
        have hlo : byte c'.buffer.1 (digits.length + 2) = .ok lo := by
          refine hbytes _ _ ?_ (by omega)
          rw [List.getElem?_cons_succ, List.getElem?_append_right (by omega),
            Nat.add_sub_cancel_left]
          rfl
        have hhandle : handle (some callback) c' len digits.length t now =
            handlePublish callback { c' with lastInActivity := t } len digits.length t now := by
          change (byte c'.buffer.1 0 >>= _) = _
          rw [hheader]
          change (if header &&& 0xF0 = 48 then _ else _) = _
          rw [if_pos hpublish]
        have hplaced0 : Placed c'.buffer.1 0 [header] :=
          placed_singleton.2 ((byte_eq_ok _ _ _).1 hheader)
        rw [hhandle, handlePublish_ends_iff callback { c' with lastInActivity := t }
          (hsafe callback rfl) header hi lo len digits.length t now hplaced0 hhi hlo hlen'
          hsize, Trap, htaken]
        dsimp only
        rw [← hlen]
        refine ⟨fun h h' => absurd (h h'.2.2.1) (Nat.not_le.2 h'.2.2.2), fun h h0 => ?_⟩
        exact Nat.le_of_not_lt fun hlt => h ⟨rfl, hpublish, h0, hlt⟩
      -- every other packet is handled inside the buffer
      · refine iff_of_true (fun _ => handle_ends callback c' f.header len digits.length t now
          hheader hmessage hsize) fun h => hmessage ⟨?_, h.1⟩
        have htrap := h.2
        rw [Trap, htaken] at htrap
        split at htrap
        · rename_i heq
          obtain ⟨⟩ := heq
          exact htrap.1
        · exact htrap.elim

/-- A byte that is there is there still when it was looked for. -/
theorem poll_of_ready {c : PubSubClient bufferSize} (h : c.ready = true) :
    c._client.poll = (true, c._client) := by
  rw [ready, Link.poll] at h
  rw [Link.poll]
  split at h
  · rfl
  all_goals cases h

theorem receive_ends_iff (callback : Option Callback) (c : PubSubClient bufferSize)
    (hsafe : ∀ f ∈ callback, SafeCallback bufferSize f) (t now : UInt32)
    (hsize : 7 ≤ bufferSize.toNat) :
    Ends (c.receive callback t now) ↔ ¬ (c.ready = true ∧ callback.isSome = true ∧
      Trap bufferSize c.stream (heard c._client.source.ticks)) := by
  by_cases hready : c.ready = true
  -- with something to read, a packet is read and handled
  · have hstep := readPacket_handle_ends_iff callback c hsafe t now hsize
    rw [receive, poll_of_ready hready]
    change Ends (if true = true then _ else _) ↔ _
    rw [if_pos rfl]
    refine hstep.trans (not_congr ?_)
    exact ⟨fun h => ⟨hready, h⟩, fun h => h.2⟩
  · refine iff_of_true ?_ fun h => hready h.1
    have hpoll : c._client.poll = (false, c._client.poll.2) :=
      Prod.ext (Bool.eq_false_iff.2 hready) rfl
    rw [receive, hpoll]
    exact ends_ok _

/-- A ping leaves what comes. -/
theorem write_source (l : Link) (data : List UInt8) : (l.write data).2.source = l.source := by
  rw [Link.write]
  split_ifs
  · split <;> rfl
  · rfl

/-- There is a packet for `loop`, and the connection is not given up before. -/
def Receives (c : PubSubClient bufferSize) (t : UInt32) : Prop :=
  c.Up ∧ ¬ (c.idle t ∧ c.pingOutstanding = true) ∧ c.ready = true

theorem loop_ends_iff (callback : Option Callback) (c : PubSubClient bufferSize)
    (hsafe : ∀ f ∈ callback, SafeCallback bufferSize f) (t now : UInt32)
    (hsize : 7 ≤ bufferSize.toNat) :
    Ends (c.loop callback t now) ↔ ¬ (c.Receives t ∧ callback.isSome = true ∧
      Trap bufferSize c.stream (heard c._client.source.ticks)) := by
  by_cases hup : c.Up
  · rw [loop, connected_of_up hup]
    dsimp only
    rw [if_pos rfl]
    -- an idle connection is closed if a ping is out, and pinged if not
    by_cases hidle : c.idle t
    · rw [if_pos hidle]
      by_cases hping : c.pingOutstanding = true
      · rw [if_pos hping]
        exact iff_of_true (ends_ok _) fun h => h.1.2.1 ⟨hidle, hping⟩
      · obtain ⟨b, hstore⟩ := exists_store c.buffer 0 [192, 0] (by change 2 ≤ _; omega)
        obtain ⟨c', hc'⟩ : ∃ c' : PubSubClient bufferSize, c' = { c with
            buffer := b, _client := (c._client.write [192, 0]).2, lastOutActivity := t
            lastInActivity := t, pingOutstanding := true } := ⟨_, rfl⟩
        -- a ping leaves what is received as it was
        have hsource : c'._client.source = c._client.source := by
          rw [hc']
          exact write_source c._client [192, 0]
        have hready : c'.ready = c.ready := by
          rw [ready, ready, Link.poll, Link.poll, hsource]
          split <;> rfl
        have hstream : c'.stream = c.stream := by rw [hc']
        have hreceive := receive_ends_iff callback c' hsafe t now hsize
        rw [hready, hstream, hsource] at hreceive
        rw [if_neg hping, hstore]
        change Ends (receive callback { c with
            buffer := b, _client := (c._client.write [192, 0]).2, lastOutActivity := t
            lastInActivity := t, pingOutstanding := true } t now) ↔ _
        rw [← hc', hreceive]
        exact not_congr ⟨fun h => ⟨⟨hup, fun h' => hping h'.2, h.1⟩, h.2⟩,
          fun h => ⟨h.1.2.2, h.2⟩⟩
    · rw [if_neg hidle, receive_ends_iff callback c hsafe t now hsize]
      exact not_congr ⟨fun h => ⟨⟨hup, fun h' => hidle h'.1, h.1⟩, h.2⟩,
        fun h => ⟨h.1.2.2, h.2⟩⟩
  · refine iff_of_true ?_ fun h => hup h.1.1
    rw [loop, connected_of_not_up hup]
    exact ends_ok _

/-! ### Runs -/

/-- A call of the application that leaves the buffer. -/
def Overruns (callback : Option Callback) (c : PubSubClient bufferSize) : Event → Prop
  | .publish_P topic payload _ => c.Up ∧ bufferSize.toNat <
      3 + (lengthDigits 5 ((payload.length + 2 + topic.1.length) % 2 ^ 32)).length +
        topic.1.length
  | .publishInParts topic _ _ => c.Up ∧ bufferSize.toNat < 7 + topic.1.length
  | .subscribe topic qos => c.Up ∧ qos ≤ 1 ∧ bufferSize.toNat = 9 + topic.1.length
  | .loop t => c.Receives t ∧ callback.isSome = true ∧
      Trap bufferSize c.stream (heard c._client.source.ticks)
  | _ => False

/-- A payload that does not make its length overflow. -/
def Sized : Event → Prop
  | .publish _ payload _ => payload.length < 2 ^ 31
  | _ => True

/-- One call of the application stays inside the buffer, or it is one that does not. -/
theorem step_ends_iff (callback : Option Callback) (c : PubSubClient bufferSize)
    (hsafe : ∀ f ∈ callback, SafeCallback bufferSize f) (now : UInt32) (e : Event)
    (hsized : Sized e) (hsize : 7 ≤ bufferSize.toNat) :
    Ends (c.step callback now e) ↔ ¬ c.Overruns callback e := by
  cases e with
  | publish topic payload retained =>
      exact iff_of_true ((ends_map _ _).2 (publish_ends c topic payload retained now hsized)) id
  | publish_P topic payload retained =>
      exact (ends_map _ _).trans (publish_P_ends_iff c topic payload retained now hsize)
  | publishInParts topic parts retained =>
      exact publishInParts_ends_iff c topic parts retained now hsize
  | subscribe topic qos => exact (ends_map _ _).trans (subscribe_ends_iff c topic qos now)
  | unsubscribe topic =>
      exact iff_of_true ((ends_map _ _).2 (unsubscribe_ends c topic now)) id
  | loop t => exact (ends_map _ _).trans (loop_ends_iff callback c hsafe t now hsize)
  | disconnect => exact iff_of_true (disconnect_ends c now (by omega)) id
  | lost => exact iff_of_true (ends_ok _) id

end PubSubClient

end Mqtt

end ArduinoBeken
