import ArduinoBeken.Library.MqttPackets
import ArduinoBeken.Library.PlacedBytes
import ArduinoBeken.Mqtt.PubSubClient

/-!
# What the Client Writes

Each call of the client that has room in the buffer writes one packet of MQTT, the one that its
arguments say, in one write of the connection. What stood in the buffer before makes no
difference.

## Main definitions

* `Up`: The session has begun and the connection stands.
* `ConnectArgs.packet`: The packet of a connection.

## Theorems

* `writeString_spec`, `buildHeader_spec`, `writePacket_spec`: Packets are put together.
* `publish_spec`, `subscribe_spec`, `unsubscribe_spec`: One packet for one call.
* `subscribe_overrun`: A subscription that overruns the buffer.
* `beginPublish_spec`, `publish_P_spec`: A payload that does not go through the buffer.
-/

namespace ArduinoBeken

namespace Mqtt

open Arrivals
open CheckedBytes (Block Fault byte load store Placed exists_store placed_store)
open MqttPackets (Packet Frame lengthBytes text word)

namespace Link

/-- A connection that takes all that is written. -/
def Takes (l : Link) : Prop :=
  l.connected = true ∧ l.accepts = []

theorem write_of_takes {l : Link} (h : l.Takes) (data : List UInt8) :
    l.write data = (data.length, { l with sent := l.sent ++ data }) := by
  rw [write, if_pos h.1, h.2]

theorem writeEach_of_takes {l : Link} (h : l.Takes) (data : List UInt8) :
    l.writeEach data = (data.length, { l with sent := l.sent ++ data }) := by
  induction data generalizing l with
  | nil => rw [writeEach, List.append_nil, List.length_nil]
  | cons b data ih =>
      have htakes : ({ l with sent := l.sent ++ [b] } : Link).Takes := h
      rw [writeEach, write_of_takes h]
      dsimp only
      rw [ih htakes, List.append_assoc, List.length_singleton, List.length_cons, Nat.add_comm 1]
      rfl

end Link

/-- The packet of a connection whose will has a quality of service that there is. -/
def ConnectArgs.packet (a : ConnectArgs) (keepAlive : UInt16) (h : a.willQos.toNat < 3) :
    MqttPackets.Connect where
  client := a.id.1
  clean := a.cleanSession
  keepAlive := keepAlive
  will := a.willTopic.map fun topic =>
    ⟨topic.1, a.willMessage.1, ⟨a.willQos.toNat, h⟩, a.willRetain⟩
  user := a.user.map fun user => (user.1, a.pass.map (·.1))

variable {bufferSize : UInt16}

namespace PubSubClient

/-! ### Packets are put together -/

/-- The bytes of a length are those of MQTT. -/
theorem lengthDigits_eq (k n : Nat) : lengthDigits k n = lengthBytes k n := by
  have hmore : ∀ d < 128, UInt8.ofNat d ||| 0x80 = UInt8.ofNat (d + 128) := by
    decide +kernel
  induction k generalizing n with
  | zero => rfl
  | succ k ih =>
      rw [lengthDigits, MqttPackets.lengthBytes_succ]
      by_cases hn : n < 128
      · rw [if_neg (by omega), if_pos hn, Nat.mod_eq_of_lt hn]
      · rw [if_pos (by omega), if_neg hn, ih, hmore _ (by omega)]

/-- A text is written with its length, and what stands apart from it is kept. -/
theorem writeString_spec (s : CString) (b : Block bufferSize.toNat) (pos : Nat)
    (h : pos + 2 + s.1.length ≤ bufferSize.toNat) :
    ∃ b', writeString s b pos = .ok b' ∧ Placed b'.1 pos (text s.1) ∧
      ∀ p d, Placed b.1 p d → p + d.length ≤ pos → Placed b'.1 p d := by
  have hsize := bufferSize.toNat_lt
  have hmod : s.1.length % 65536 = s.1.length := Nat.mod_eq_of_lt (by omega)
  obtain ⟨b1, hstore1⟩ := exists_store b (pos + 2) s.1 (by omega)
  obtain ⟨b2, hstore2⟩ := exists_store b1 pos (bytes16 s.1.length) (by change pos + 2 ≤ _; omega)
  -- the text is stored first and its length in front of it
  refine ⟨b2, ?_, ?_, fun p d hp hapart => ?_⟩
  · rw [writeString, hstore1, hmod]
    exact hstore2
  · exact (placed_store hstore2).append ((placed_store hstore1).store hstore2 (Or.inr (by
      change pos + 2 ≤ pos + 2
      omega)))
  · exact (hp.store hstore1 (Or.inl (by omega))).store hstore2 (Or.inl hapart)

/-- The header stands in front of the body, and the body stays. -/
theorem buildHeader_spec (header : UInt8) (b : Block bufferSize.toNat) (length : Nat)
    (hlength : length < 65536) (hsize : 5 ≤ bufferSize.toNat) :
    ∃ hlen b', buildHeader header b length = .ok (hlen, b') ∧
      hlen = 1 + (lengthBytes 4 length).length ∧ hlen ≤ 4 ∧
      Placed b'.1 (5 - hlen) (header :: lengthBytes 4 length) ∧
      ∀ p d, Placed b.1 p d → 5 ≤ p → Placed b'.1 p d := by
  have hmod : length % 65536 = length := Nat.mod_eq_of_lt hlength
  -- a length below 65536 has at most three digits
  have hdigits : lengthDigits 3 length = lengthBytes 4 length := by
    rw [lengthDigits_eq]
    exact (MqttPackets.lengthBytes_of_le (by omega) (by decide : 2 ≤ 3)).symm
  have hle : (lengthBytes 4 length).length ≤ 3 := by
    rw [← hdigits, lengthDigits_eq]
    exact MqttPackets.length_lengthBytes_le 3 length
  have hpos := MqttPackets.length_lengthBytes_pos 3 length
  obtain ⟨b1, hstore1⟩ := exists_store b (4 - (lengthBytes 4 length).length) [header]
    (by rw [List.length_singleton]; omega)
  obtain ⟨b2, hstore2⟩ := exists_store b1 (5 - (lengthBytes 4 length).length)
    (lengthBytes 4 length) (by omega)
  refine ⟨_, b2, ?_, rfl, by omega, ?_, fun p d hp h5 => ?_⟩
  · rw [buildHeader, hmod, hdigits, hstore1]
    change (store b1 (5 - (lengthBytes 4 length).length) (lengthBytes 4 length) >>= _) = _
    rw [hstore2, Nat.add_comm 1]
    rfl
  -- header and digits end where the body begins, at the fifth byte
  · have h1 : 5 - (1 + (lengthBytes 4 length).length) = 4 - (lengthBytes 4 length).length := by
      omega
    have h2 : 4 - (lengthBytes 4 length).length + 1 = 5 - (lengthBytes 4 length).length := by
      omega
    rw [h1]
    refine Placed.append ((placed_store hstore1).store hstore2 (Or.inl ?_)) ?_
    · rw [List.length_singleton]
      omega
    · rw [List.length_singleton, h2]
      exact placed_store hstore2
  · refine (hp.store hstore1 (Or.inr ?_)).store hstore2 (Or.inr ?_)
    · rw [List.length_singleton]
      omega
    · omega

/-- The client after a write of the connection. -/
def wrote (c : PubSubClient bufferSize) (data : List UInt8) (now : UInt32) :
    PubSubClient bufferSize :=
  { c with _client := (c._client.write data).2, lastOutActivity := now }

/-- Whether all the data were written. -/
def whole (c : PubSubClient bufferSize) (data : List UInt8) : Bool :=
  (c._client.write data).1 % 65536 = data.length

/-- The packet whose body stands in the buffer is written. -/
theorem writePacket_spec (c : PubSubClient bufferSize) (header : UInt8) (body : List UInt8)
    (now : UInt32) (hbody : Placed c.buffer.1 5 body) (hroom : 5 + body.length ≤ bufferSize.toNat) :
    ∃ buffer, c.writePacket header body.length now =
      .ok (c.whole (Frame.encode ⟨header, body⟩),
        { c.wrote (Frame.encode ⟨header, body⟩) now with buffer }) := by
  have hsize := bufferSize.toNat_lt
  -- the header is built backwards from the body, wherever its digits begin
  obtain ⟨hlen, buffer, hbuild, hhlen, hle, hheader, hkeeps⟩ :=
    buildHeader_spec header c.buffer body.length (by omega) (by omega)
  have hpos := MqttPackets.length_lengthBytes_pos 3 body.length
  have hframe : Placed buffer.1 (5 - hlen) (Frame.encode ⟨header, body⟩) := by
    refine Placed.append hheader ?_
    rw [List.length_cons]
    have h5 : 5 - hlen + ((lengthBytes 4 body.length).length + 1) = 5 := by omega
    rw [h5]
    exact hkeeps 5 body hbody (Nat.le_refl 5)
  -- what is written is counted from the header on
  have hlength : (Frame.encode ⟨header, body⟩).length = body.length + hlen := by
    change (header :: (lengthBytes 4 body.length ++ body)).length = _
    rw [List.length_cons, List.length_append]
    omega
  obtain ⟨data, hload, hdata⟩ := hframe.load (by rw [buffer.2]; omega) (body.length + hlen)
    hlength.symm
  refine ⟨buffer, ?_⟩
  rw [writePacket, hbuild]
  change (load buffer.1 (5 - hlen) (body.length + hlen) >>= _) = _
  have hwhole : c.whole (Frame.encode ⟨header, body⟩) =
      decide ((c._client.write data.1).1 % 65536 = hlen + body.length) := by
    rw [whole, hlength, hdata, Nat.add_comm body.length]
  rw [hload, hwhole, wrote, ← hdata]
  rfl

/-- The session has begun and the connection stands. -/
def Up (c : PubSubClient bufferSize) : Prop :=
  c._client.connected = true ∧ c._state = MQTT_CONNECTED

theorem connected_of_up {c : PubSubClient bufferSize} (h : c.Up) : c.connected = (true, c) := by
  rw [connected, if_pos h.1, h.2]
  rfl

/-! ### One packet for one call -/

theorem publishHeader_eq (retained : Bool) (topic payload : List UInt8) :
    (if retained then 48 ||| 1 else 48 : UInt8) =
      MqttPackets.Publish.header ⟨false, retained, none, topic, payload⟩ := by
  cases retained with
  | false => rfl
  | true =>
      change (48 ||| 1 : UInt8) = UInt8.ofNat 49
      decide

theorem publish_spec {c : PubSubClient bufferSize} (hup : c.Up) (topic : CString)
    (payload : List UInt8) (retained : Bool) (now : UInt32)
    (hroom : 7 + topic.1.length + payload.length ≤ bufferSize.toNat) :
    ∃ buffer, c.publish topic payload retained now =
      .ok (c.whole (Packet.publish ⟨false, retained, none, topic.1, payload⟩).encode,
        { c.wrote (Packet.publish ⟨false, retained, none, topic.1, payload⟩).encode now with
          buffer }) := by
  have hsize := bufferSize.toNat_lt
  have hlen : strnlen topic bufferSize.toNat = topic.1.length := Nat.min_eq_left (by omega)
  -- the size test does not wrap for a payload that fits
  have hcheck : ¬ bufferSize.toNat <
      (MQTT_MAX_HEADER_SIZE + 2 + topic.1.length + payload.length) % 2 ^ 32 := by
    rw [MQTT_MAX_HEADER_SIZE]
    omega
  obtain ⟨b1, hwrite, htopic, -⟩ := writeString_spec topic c.buffer 5 (by omega)
  obtain ⟨b2, hstore⟩ := exists_store b1 (7 + topic.1.length) payload (by omega)
  have htext := MqttPackets.length_text topic.1
  -- the topic and the payload make up the body
  have hbody : Placed b2.1 5 (text topic.1 ++ payload) := by
    refine (htopic.store hstore (Or.inl (by omega))).append ?_
    have h7 : 5 + (text topic.1).length = 7 + topic.1.length := by omega
    rw [h7]
    exact placed_store hstore
  have hlength : (text topic.1 ++ payload).length = 2 + topic.1.length + payload.length := by
    rw [List.length_append]
    omega
  obtain ⟨buffer, hpacket⟩ := writePacket_spec { c with buffer := b2 }
    (if retained then 48 ||| 1 else 48) _ now hbody (by omega)
  refine ⟨buffer, ?_⟩
  -- the accesses one after the other, in the order of the source
  rw [publish, connected_of_up hup]
  dsimp only
  rw [if_pos rfl, hlen, if_neg hcheck]
  change (writeString topic c.buffer 5 >>= _) = _
  rw [hwrite]
  change (store b1 (7 + topic.1.length) payload >>= _) = _
  rw [hstore]
  change writePacket { c with buffer := b2 } _ (2 + topic.1.length + payload.length) now = _
  rw [← hlength, hpacket, publishHeader_eq retained topic.1 payload]
  rfl

/-- A message for which there is no room is not sent. -/
theorem publish_refused {c : PubSubClient bufferSize} (topic : CString) (payload : List UInt8)
    (retained : Bool) (now : UInt32) (hpayload : payload.length < 2 ^ 31)
    (hroom : bufferSize.toNat < 7 + topic.1.length + payload.length) :
    c.publish topic payload retained now = .ok (false, c.connected.2) := by
  have hsize := bufferSize.toNat_lt
  have hcheck : bufferSize.toNat <
      (MQTT_MAX_HEADER_SIZE + 2 + strnlen topic bufferSize.toNat + payload.length) % 2 ^ 32 := by
    rw [MQTT_MAX_HEADER_SIZE, strnlen]
    omega
  rw [publish]
  dsimp only
  split_ifs <;> rfl

theorem toNat_nextId (id : UInt16) : nextId id ≠ 0 := by
  rw [nextId]
  split_ifs with h
  · decide
  · exact h

/-- The id and the topic of a request stand in the buffer. -/
theorem request_spec (b : Block bufferSize.toNat) (id : UInt16) (topic : CString)
    (hroom : 9 + topic.1.length ≤ bufferSize.toNat) :
    ∃ b1 b2, store b 5 (bytes16 id.toNat) = .ok b1 ∧ writeString topic b1 7 = .ok b2 ∧
      Placed b2.1 5 (word id.toNat ++ text topic.1) := by
  obtain ⟨b1, hstore⟩ := exists_store b 5 (bytes16 id.toNat) (by change 5 + 2 ≤ _; omega)
  obtain ⟨b2, hwrite, htopic, hkeeps⟩ := writeString_spec topic b1 7 (by omega)
  refine ⟨b1, b2, hstore, hwrite, Placed.append ?_ htopic⟩
  exact hkeeps 5 _ (placed_store hstore) (Nat.le_refl 7)

theorem subscribe_spec {c : PubSubClient bufferSize} (hup : c.Up) (topic : CString) (qos : UInt8)
    (now : UInt32) (hqos : qos ≤ 1) (hroom : 10 + topic.1.length ≤ bufferSize.toNat) :
    ∃ buffer, c.subscribe topic qos now =
      .ok (c.whole (Packet.subscribe (nextId c.nextMsgId) topic.1 qos).encode,
        { c.wrote (Packet.subscribe (nextId c.nextMsgId) topic.1 qos).encode now with
          buffer, nextMsgId := nextId c.nextMsgId }) := by
  have hlen : strnlen topic bufferSize.toNat = topic.1.length := Nat.min_eq_left (by omega)
  obtain ⟨b1, b2, hstore, hwrite, hplaced⟩ :=
    request_spec c.buffer (nextId c.nextMsgId) topic (by omega)
  obtain ⟨b3, hqos'⟩ := exists_store b2 (9 + topic.1.length) [qos]
    (by rw [List.length_singleton]; omega)
  have htext := MqttPackets.length_text topic.1
  have hfront : (word (nextId c.nextMsgId).toNat ++ text topic.1).length =
      4 + topic.1.length := by
    rw [List.length_append, MqttPackets.length_word]
    omega
  -- the identifier, the topic and the QoS make up the body
  have hbody : Placed b3.1 5 (word (nextId c.nextMsgId).toNat ++ (text topic.1 ++ [qos])) := by
    rw [← List.append_assoc]
    refine (hplaced.store hqos' (Or.inl (by omega))).append ?_
    have h9 : 5 + (word (nextId c.nextMsgId).toNat ++ text topic.1).length =
        9 + topic.1.length := by omega
    rw [h9]
    exact placed_store hqos'
  have hlength : (word (nextId c.nextMsgId).toNat ++ (text topic.1 ++ [qos])).length =
      5 + topic.1.length := by
    rw [← List.append_assoc, List.length_append, hfront, List.length_singleton]
    omega
  obtain ⟨buffer, hpacket⟩ := writePacket_spec
    { c with buffer := b3, nextMsgId := nextId c.nextMsgId } (128 ||| 2) _ now hbody (by omega)
  refine ⟨buffer, ?_⟩
  rw [subscribe, if_neg (UInt8.not_lt.2 hqos), hlen, if_neg (by omega), connected_of_up hup]
  dsimp only
  rw [if_pos rfl]
  -- each access in the order of the source
  change (store c.buffer 5 (bytes16 (nextId c.nextMsgId).toNat) >>= _) = _
  rw [hstore]
  change (writeString topic b1 7 >>= _) = _
  rw [hwrite]
  change (store b2 (9 + topic.1.length) [qos] >>= _) = _
  rw [hqos']
  change writePacket { c with buffer := b3, nextMsgId := nextId c.nextMsgId } _
    (5 + topic.1.length) now = _
  rw [← hlength, hpacket]
  rfl

theorem unsubscribe_spec {c : PubSubClient bufferSize} (hup : c.Up) (topic : CString)
    (now : UInt32) (hroom : 9 + topic.1.length ≤ bufferSize.toNat) :
    ∃ buffer, c.unsubscribe topic now =
      .ok (c.whole (Packet.unsubscribe (nextId c.nextMsgId) topic.1).encode,
        { c.wrote (Packet.unsubscribe (nextId c.nextMsgId) topic.1).encode now with
          buffer, nextMsgId := nextId c.nextMsgId }) := by
  have hlen : strnlen topic bufferSize.toNat = topic.1.length := Nat.min_eq_left (by omega)
  obtain ⟨b1, b2, hstore, hwrite, hbody⟩ :=
    request_spec c.buffer (nextId c.nextMsgId) topic (by omega)
  have htext := MqttPackets.length_text topic.1
  -- the body is the identifier and the topic
  have hlength : (word (nextId c.nextMsgId).toNat ++ text topic.1).length =
      4 + topic.1.length := by
    rw [List.length_append, MqttPackets.length_word]
    omega
  obtain ⟨buffer, hpacket⟩ := writePacket_spec
    { c with buffer := b2, nextMsgId := nextId c.nextMsgId } (160 ||| 2) _ now hbody (by omega)
  refine ⟨buffer, ?_⟩
  rw [unsubscribe, hlen, if_neg (by omega), connected_of_up hup]
  dsimp only
  rw [if_pos rfl]
  change (store c.buffer 5 (bytes16 (nextId c.nextMsgId).toNat) >>= _) = _
  rw [hstore]
  change (writeString topic b1 7 >>= _) = _
  rw [hwrite]
  change writePacket { c with buffer := b2, nextMsgId := nextId c.nextMsgId } _
    (4 + topic.1.length) now = _
  rw [← hlength, hpacket]
  rfl

/-- A topic for which there is no room is not subscribed to. -/
theorem subscribe_refused {c : PubSubClient bufferSize} (topic : CString) (qos : UInt8)
    (now : UInt32) (h : 1 < qos ∨ bufferSize.toNat < 9 + topic.1.length) :
    c.subscribe topic qos now = .ok (false, c) := by
  rw [subscribe]
  by_cases hqos : 1 < qos
  · rw [if_pos hqos]
  · rw [if_neg hqos, if_pos]
    rw [strnlen]
    have := h.resolve_left hqos
    omega

theorem unsubscribe_refused {c : PubSubClient bufferSize} (topic : CString) (now : UInt32)
    (h : bufferSize.toNat < 9 + topic.1.length) : c.unsubscribe topic now = .ok (false, c) := by
  rw [unsubscribe, if_pos]
  rw [strnlen]
  omega

/-- One byte more is checked for than is written, so that the quality of service of a topic that
just seems to fit is written behind the buffer. -/
theorem subscribe_overrun {c : PubSubClient bufferSize} (hup : c.Up) (topic : CString)
    (qos : UInt8) (now : UInt32) (hqos : qos ≤ 1)
    (hroom : bufferSize.toNat = 9 + topic.1.length) :
    c.subscribe topic qos now = .error ⟨.write, bufferSize.toNat, 1, bufferSize.toNat⟩ := by
  have hlen : strnlen topic bufferSize.toNat = topic.1.length := Nat.min_eq_left (by omega)
  obtain ⟨b1, b2, hstore, hwrite, -⟩ :=
    request_spec c.buffer (nextId c.nextMsgId) topic (by omega)
  -- the room for the identifier was not counted, so the QoS falls behind the buffer
  have hfault : store b2 (9 + topic.1.length) [qos] =
      .error ⟨.write, bufferSize.toNat, 1, bufferSize.toNat⟩ := by
    rw [← hroom, store, dif_neg (by rw [List.length_singleton]; omega), List.length_singleton]
  rw [subscribe, if_neg (UInt8.not_lt.2 hqos), hlen, if_neg (by omega), connected_of_up hup]
  dsimp only
  rw [if_pos rfl]
  change (store c.buffer 5 (bytes16 (nextId c.nextMsgId).toNat) >>= _) = _
  rw [hstore]
  change (writeString topic b1 7 >>= _) = _
  rw [hwrite]
  change (store b2 (9 + topic.1.length) [qos] >>= _) = _
  rw [hfault]
  rfl

/-! ### A payload that does not go through the buffer -/

/-- The client after data that were written in several writes. -/
def sentAll (c : PubSubClient bufferSize) (data : List UInt8) (now : UInt32) :
    PubSubClient bufferSize :=
  { c with
    _client := { c._client with sent := c._client.sent ++ data }, lastOutActivity := now }

theorem wrote_of_takes {c : PubSubClient bufferSize} (h : c._client.Takes) (data : List UInt8)
    (now : UInt32) : c.wrote data now = c.sentAll data now := by
  rw [wrote, Link.write_of_takes h, sentAll]

theorem sentAll_sentAll (c : PubSubClient bufferSize) (d e : List UInt8) (t now : UInt32) :
    (c.sentAll d t).sentAll e now = c.sentAll (d ++ e) now := by
  rw [sentAll, sentAll, sentAll, List.append_assoc]

/-- The bytes of a message without an id. -/
theorem encode_publish (retained : Bool) (topic payload : List UInt8) :
    (Packet.publish ⟨false, retained, none, topic, payload⟩).encode =
      ((if retained then 48 ||| 1 else 48) :: (lengthBytes 4 (payload.length + 2 + topic.length) ++
        text topic)) ++ payload := by
  have hlen : (text topic ++ payload).length = payload.length + 2 + topic.length := by
    rw [List.length_append, MqttPackets.length_text]
    omega
  rw [publishHeader_eq retained topic payload, ← hlen, List.cons_append, List.append_assoc]
  rfl

theorem publish_P_spec {c : PubSubClient bufferSize} (hup : c.Up) (htakes : c._client.Takes)
    (topic : CString) (payload : List UInt8) (retained : Bool) (now : UInt32)
    (hfits : (Packet.publish ⟨false, retained, none, topic.1, payload⟩).Fits)
    (hroom : 3 + (lengthBytes 4 (payload.length + 2 + topic.1.length)).length + topic.1.length ≤
      bufferSize.toNat) :
    ∃ buffer, c.publish_P topic payload retained now =
      .ok (true, { c.sentAll (Packet.publish ⟨false, retained, none, topic.1, payload⟩).encode now
        with buffer }) := by
  obtain ⟨-, hlarge⟩ := hfits
  dsimp only at hlarge
  have hlen : strnlen topic bufferSize.toNat = topic.1.length := Nat.min_eq_left (by omega)
  have htotal : (payload.length + 2 + topic.1.length) % 2 ^ 32 =
      payload.length + 2 + topic.1.length := Nat.mod_eq_of_lt (by omega)
  -- the digits of a length that fits are those of the packet
  have hdigits5 : lengthDigits 5 (payload.length + 2 + topic.1.length) =
      lengthBytes 4 (payload.length + 2 + topic.1.length) := by
    rw [lengthDigits_eq]
    exact MqttPackets.lengthBytes_of_le (by omega) (by decide : 3 ≤ 4)
  have hle := MqttPackets.length_lengthBytes_le 4 (payload.length + 2 + topic.1.length)
  have hencode := encode_publish retained topic.1 payload
  obtain ⟨digits, hdigits⟩ : ∃ digits, digits = lengthBytes 4 (payload.length + 2 +
    topic.1.length) := ⟨_, rfl⟩
  obtain ⟨header, hheader⟩ : ∃ header : UInt8, header = if retained then 48 ||| 1 else 48 :=
    ⟨_, rfl⟩
  rw [← hdigits] at hdigits5 hle hroom hencode
  rw [← hheader] at hencode
  have htext := MqttPackets.length_text topic.1
  obtain ⟨b1, hstore1⟩ := exists_store c.buffer 0 [header]
    (by rw [List.length_singleton]; omega)
  obtain ⟨b2, hstore2⟩ := exists_store b1 1 digits (by omega)
  obtain ⟨b3, hwrite, htopic, hkeeps⟩ := writeString_spec topic b2 (1 + digits.length) (by omega)
  -- the header, the length and the topic are written at once
  have hhead : Placed b3.1 0 (header :: (digits ++ text topic.1)) := by
    refine Placed.append (d := [header]) ?_ ?_
    · exact hkeeps 0 [header] ((placed_store hstore1).store hstore2
        (Or.inl (by rw [List.length_singleton]))) (by rw [List.length_singleton]; omega)
    · refine Placed.append ?_ htopic
      exact hkeeps _ _ (placed_store hstore2) (by rw [List.length_singleton])
  have hlength : (header :: (digits ++ text topic.1)).length =
      1 + digits.length + 2 + topic.1.length := by
    rw [List.length_cons, List.length_append]
    omega
  -- one write for what stands in front of the payload, then a byte at a time
  obtain ⟨data, hload, hdata⟩ := hhead.load (by rw [b3.2]; omega)
    (1 + digits.length + 2 + topic.1.length) hlength.symm
  refine ⟨b3, ?_⟩
  rw [publish_P, connected_of_up hup]
  dsimp only
  rw [if_pos rfl, hlen, htotal, hdigits5, ← hheader, hstore1]
  change (store b1 1 digits >>= _) = _
  rw [hstore2]
  change (writeString topic b2 (1 + digits.length) >>= _) = _
  rw [hwrite]
  change (load b3.1 0 (1 + digits.length + 2 + topic.1.length) >>= _) = _
  rw [hload]
  have htakes' : ({ c._client with sent := c._client.sent ++ data.1 } : Link).Takes := htakes
  change Except.ok (decide (((c._client.write data.1).1 +
    ((c._client.write data.1).2.writeEach payload).1) % 2 ^ 32 =
      (1 + digits.length + 2 + topic.1.length + payload.length) % 2 ^ 32),
    ({ c with
      buffer := b3
      _client := ((c._client.write data.1).2.writeEach payload).2
      lastOutActivity := now } : PubSubClient bufferSize)) = _
  rw [Link.write_of_takes htakes, Link.writeEach_of_takes htakes', hdata, hlength, hencode,
    decide_eq_true rfl]
  simp only [sentAll, List.append_assoc]

/-- The header and the topic of a message whose payload is written by the caller. -/
theorem beginPublish_spec {c : PubSubClient bufferSize} (hup : c.Up) (htakes : c._client.Takes)
    (topic : CString) (plength : Nat) (retained : Bool) (now : UInt32)
    (hlength : plength + 2 + topic.1.length < 65536)
    (hroom : 7 + topic.1.length ≤ bufferSize.toNat) :
    ∃ buffer, c.beginPublish topic plength retained now =
      .ok (true, { c.sentAll ((if retained then 48 ||| 1 else 48) ::
        (lengthBytes 4 (plength + 2 + topic.1.length) ++ text topic.1)) now with buffer }) := by
  have htext := MqttPackets.length_text topic.1
  obtain ⟨b1, hwrite, htopic, -⟩ := writeString_spec topic c.buffer 5 (by omega)
  obtain ⟨header, hheader⟩ : ∃ header : UInt8, header = if retained then 48 ||| 1 else 48 :=
    ⟨_, rfl⟩
  obtain ⟨hlen, b2, hbuild, hhlen, hle, hhead, hkeeps⟩ :=
    buildHeader_spec header b1 (plength + (2 + topic.1.length)) (by omega) (by omega)
  have hpos := MqttPackets.length_lengthBytes_pos 3 (plength + (2 + topic.1.length))
  have hsum : plength + (2 + topic.1.length) = plength + 2 + topic.1.length := by omega
  -- header and topic stand together, so one write takes both
  have hplaced : Placed b2.1 (5 - hlen)
      (header :: (lengthBytes 4 (plength + (2 + topic.1.length)) ++ text topic.1)) := by
    refine Placed.append hhead ?_
    rw [List.length_cons]
    have h5 : 5 - hlen + ((lengthBytes 4 (plength + (2 + topic.1.length))).length + 1) = 5 := by
      omega
    rw [h5]
    exact hkeeps 5 _ htopic (Nat.le_refl 5)
  have hlength : (header :: (lengthBytes 4 (plength + (2 + topic.1.length)) ++
      text topic.1)).length = 2 + topic.1.length + hlen := by
    rw [List.length_cons, List.length_append]
    omega
  obtain ⟨data, hload, hdata⟩ := hplaced.load (by rw [b2.2]; omega) (2 + topic.1.length + hlen)
    hlength.symm
  have hsize := bufferSize.toNat_lt
  refine ⟨b2, ?_⟩
  rw [beginPublish, connected_of_up hup]
  dsimp only
  rw [if_pos rfl, ← hheader]
  change (writeString topic c.buffer 5 >>= _) = _
  rw [hwrite]
  change (buildHeader header b1 (plength + (2 + topic.1.length)) >>= _) = _
  rw [hbuild]
  change (load b2.1 (5 - hlen) (2 + topic.1.length + hlen) >>= _) = _
  rw [hload]
  change Except.ok (decide ((c._client.write data.1).1 % 65536 = 2 + topic.1.length + hlen),
    ({ c with
      buffer := b2, _client := (c._client.write data.1).2, lastOutActivity := now }
        : PubSubClient bufferSize)) = _
  rw [Link.write_of_takes htakes, hdata, hlength, Nat.mod_eq_of_lt (by omega),
    decide_eq_true rfl, hsum]
  rfl

/-! ### The packet of a connection -/

/-- The bits as the client puts them together, and as MQTT has them. -/
theorem flagBits : ∀ w ∈ ([0, 1, 2] : List UInt8), ∀ retain clean will user pass : Bool,
    (let willRetain : UInt8 := if retain then 32 else 0
     let v : UInt8 := if will then (4 : UInt8) ||| w <<< 3 ||| willRetain else 0
     let v := if clean then v ||| 2 else v
     if user then
       let v := v ||| 128
       if pass then v ||| 64 else v
     else v) =
      UInt8.ofNat (MqttPackets.flag clean 2 +
        (if will then 4 + w.toNat * 8 + MqttPackets.flag retain 32 else 0) +
        if user then 128 + MqttPackets.flag pass 64 else 0) := by
  decide +kernel

theorem flags_eq (a : ConnectArgs) (keepAlive : UInt16) (h : a.willQos.toNat < 3) :
    a.flags = (a.packet keepAlive h).flags := by
  obtain ⟨id, user, pass, willTopic, w, willRetain, willMessage, cleanSession⟩ := a
  have hw : w ∈ ([0, 1, 2] : List UInt8) := by
    have h' : w.toNat < 3 := h
    simp only [List.mem_cons, List.not_mem_nil, or_false, ← UInt8.toNat_inj]
    change w.toNat = 0 ∨ w.toNat = 1 ∨ w.toNat = 2
    omega
  -- each combination of will, user and password is one of the computed cases
  have hbits := flagBits w hw willRetain cleanSession
  cases willTopic with
  | none =>
      cases user with
      | none => exact hbits false false false
      | some user =>
          cases pass with
          | none => exact hbits false true false
          | some pass => exact hbits false true true
  | some willTopic =>
      cases user with
      | none => exact hbits true false false
      | some user =>
          cases pass with
          | none => exact hbits true true false
          | some pass => exact hbits true true true

theorem strings_eq (a : ConnectArgs) (keepAlive : UInt16) (h : a.willQos.toNat < 3) :
    a.strings.flatMap (fun s => text s.1) = text a.id.1 ++
      (MqttPackets.willBytes (a.packet keepAlive h).will ++
        MqttPackets.userBytes (a.packet keepAlive h).user) := by
  obtain ⟨id, user, pass, willTopic, willQos, willRetain, willMessage, cleanSession⟩ := a
  cases willTopic <;> cases user <;> cases pass <;>
    simp [ConnectArgs.strings, ConnectArgs.packet, MqttPackets.willBytes, MqttPackets.userBytes]

/-- Texts are written one behind the other, unless there is too little room for them. -/
theorem writeStrings_spec (ss : List CString) (b : Block bufferSize.toNat) (pos : Nat)
    (hpos : pos ≤ bufferSize.toNat) :
    ∃ b', (∀ p d, Placed b.1 p d → p + d.length ≤ pos → Placed b'.1 p d) ∧
      if pos + (ss.flatMap fun s => text s.1).length ≤ bufferSize.toNat then
        writeStrings ss b pos = .ok (some (pos + (ss.flatMap fun s => text s.1).length), b') ∧
          Placed b'.1 pos (ss.flatMap fun s => text s.1)
      else writeStrings ss b pos = .ok (none, b') := by
  -- induction on the strings, of which each is tested before it is written
  induction ss generalizing b pos with
  | nil =>
      refine ⟨b, fun p d hp _ => hp, ?_⟩
      rw [List.flatMap_nil, List.length_nil, Nat.add_zero, if_pos hpos]
      exact ⟨rfl, CheckedBytes.placed_nil _ _⟩
  | cons s ss ih =>
      have htext := MqttPackets.length_text s.1
      rw [List.flatMap_cons, List.length_append, htext]
      by_cases hroom : pos + 2 + s.1.length ≤ bufferSize.toNat
      · have hlen : strnlen s bufferSize.toNat = s.1.length := Nat.min_eq_left (by omega)
        obtain ⟨b1, hwrite, hplaced, hkeeps⟩ := writeString_spec s b pos hroom
        obtain ⟨b2, hkeeps2, hrest⟩ := ih b1 (pos + 2 + s.1.length) hroom
        have hstep : writeStrings (s :: ss) b pos =
            writeStrings ss b1 (pos + 2 + s.1.length) := by
          rw [writeStrings, hlen, if_neg (by omega), hwrite]
          rfl
        refine ⟨b2, fun p d hp hle => hkeeps2 p d (hkeeps p d hp hle) (by omega), ?_⟩
        have hsum : pos + (s.1.length + 2 + (ss.flatMap fun s => text s.1).length) =
            pos + 2 + s.1.length + (ss.flatMap fun s => text s.1).length := by omega
        rw [hstep, hsum]
        split_ifs at hrest ⊢ with hfits
        · refine ⟨hrest.1, (hkeeps2 pos _ hplaced (by omega)).append ?_⟩
          have hend : pos + (text s.1).length = pos + 2 + s.1.length := by omega
          rw [hend]
          exact hrest.2
        · exact hrest
      -- the first string without room ends the writing
      · refine ⟨b, fun p d hp _ => hp, ?_⟩
        rw [if_neg (by omega), writeStrings, if_pos]
        rw [strnlen]
        omega

/-- The texts of a connection have room behind the fifteen bytes in front of them. -/
def Room (bufferSize : UInt16) (a : ConnectArgs) : Prop :=
  15 + (a.strings.flatMap fun s => text s.1).length ≤ bufferSize.toNat

/-- The client before it waits for the answer. -/
def greeted (c : PubSubClient bufferSize) (a : ConnectArgs) (h : a.willQos.toNat < 3)
    (t : UInt32) : PubSubClient bufferSize :=
  { c.wrote (Packet.connect (a.packet c.keepAlive h)).encode t with
    nextMsgId := 1, lastInActivity := t }

/-- The packet of a connection is written, and the answer is waited for. -/
theorem greet_spec (c : PubSubClient bufferSize) (a : ConnectArgs) (t now : UInt32)
    (h : a.willQos.toNat < 3) (hroom : Room bufferSize a) :
    ∃ buffer, c.greet a t now = acknowledged { c.greeted a h t with buffer } now := by
  have hroom' : 15 + (a.strings.flatMap fun s => text s.1).length ≤ bufferSize.toNat := hroom
  obtain ⟨b1, hstore⟩ := exists_store c.buffer 5
    ([0, 4, 77, 81, 84, 84, 4] ++ a.flags :: bytes16 c.keepAlive.toNat) (by
      change 5 + 10 ≤ _
      omega)
  obtain ⟨b2, hkeeps, hstrings⟩ := writeStrings_spec a.strings b1 15 (by omega)
  rw [if_pos hroom'] at hstrings
  obtain ⟨hwrite, hplaced⟩ := hstrings
  -- the fixed part stands in front of the strings
  have hbody : Placed b2.1 5 (a.packet c.keepAlive h).body := by
    have hfront := hkeeps 5 _ (placed_store hstore) (Nat.le_refl 15)
    have hall := hfront.append hplaced
    rw [strings_eq a c.keepAlive h, flags_eq a c.keepAlive h] at hall
    exact hall
  have hlength : (a.packet c.keepAlive h).body.length =
      15 + (a.strings.flatMap fun s => text s.1).length - 5 := by
    rw [strings_eq a c.keepAlive h]
    change (([0, 4, 77, 81, 84, 84, 4] ++ (a.packet c.keepAlive h).flags ::
      bytes16 c.keepAlive.toNat) ++ (text a.id.1 ++
        (MqttPackets.willBytes (a.packet c.keepAlive h).will ++
          MqttPackets.userBytes (a.packet c.keepAlive h).user))).length = _
    rw [List.length_append]
    change 10 + _ = _
    omega
  obtain ⟨buffer, hpacket⟩ := writePacket_spec { c with buffer := b2, nextMsgId := 1 } 16
    (a.packet c.keepAlive h).body t hbody (by omega)
  refine ⟨buffer, ?_⟩
  rw [greet]
  change (store c.buffer 5 ([0, 4, 77, 81, 84, 84, 4] ++ a.flags :: bytes16 c.keepAlive.toNat) >>=
    _) = _
  rw [hstore]
  change (writeStrings a.strings b1 15 >>= _) = _
  rw [hwrite]
  change (writePacket { c with buffer := b2, nextMsgId := 1 } 16
    (15 + (a.strings.flatMap fun s => text s.1).length - 5) t >>= _) = _
  rw [← hlength, hpacket]
  rfl

/-- Without room for the texts nothing is written, and the connection is given up. -/
theorem greet_refused (c : PubSubClient bufferSize) (a : ConnectArgs) (t now : UInt32)
    (hsize : 15 ≤ bufferSize.toNat) (hroom : ¬ Room bufferSize a) :
    ∃ buffer, c.greet a t now =
      .ok (false, { c with buffer, nextMsgId := 1, _client := c._client.stop }) := by
  obtain ⟨b1, hstore⟩ := exists_store c.buffer 5
    ([0, 4, 77, 81, 84, 84, 4] ++ a.flags :: bytes16 c.keepAlive.toNat) (by
      change 5 + 10 ≤ _
      omega)
  have hroom' : ¬ 15 + (a.strings.flatMap fun s => text s.1).length ≤ bufferSize.toNat := hroom
  -- the strings do not all fit, so the client gives up and closes
  obtain ⟨b2, -, hstrings⟩ := writeStrings_spec a.strings b1 15 hsize
  rw [if_neg hroom'] at hstrings
  refine ⟨b2, ?_⟩
  rw [greet]
  change (store c.buffer 5 ([0, 4, 77, 81, 84, 84, 4] ++ a.flags :: bytes16 c.keepAlive.toNat) >>=
    _) = _
  rw [hstore]
  change (writeStrings a.strings b1 15 >>= _) = _
  rw [hstrings]
  rfl

end PubSubClient

end Mqtt

end ArduinoBeken
