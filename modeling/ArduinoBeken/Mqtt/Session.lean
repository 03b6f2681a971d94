import ArduinoBeken.Mqtt.ReadPackets

/-!
# A Session in Packets

What a session is for: packets go to the broker and come from it, messages are handed to the
callback, and those with an id are acknowledged. There are no bytes at this level, no buffer but
for its size, and of the time at which packets come only whether there is one to handle.

The client refines it. A call of the client does to its bytes what the call of the session does
to the packets, and comes to an end without a fault, if the call is one for which there is room
in the buffer or the client checks for it.

## Main definitions

* `Session`: The abstract state.
* `Event`, `Session.step`: Calls, and what they do.
* `Refines`: The client has the packets of the session in bytes.

## Theorems

* `refines_request`, `refines_call`: Calls of the callback.
* `refines_receive`, `refines_loop`: Packets that come.
* `refines_step`: A call of the client is one of the session.
-/

namespace ArduinoBeken

namespace Mqtt

open Arrivals
open CheckedBytes (Block Fault byte load store Placed exists_store placed_store)
open MqttPackets (Packet Frame Publish lengthBytes text word encodeAll)

/-! ### Sessions -/

/-- A session with a broker: whether the connection stands, what is to come and what was sent,
and what the callback and the stream were given. -/
structure Session where
  linked : Bool
  state : Int
  inbox : List Packet
  outbox : List Packet
  calls : List Message
  stream : Option (List UInt8)
  nextMsgId : UInt16
  lastOutActivity : UInt32
  lastInActivity : UInt32
  pingOutstanding : Bool
  keepAlive : UInt16

/-- What the application does, and that the connection breaks. -/
inductive Event where
  | publish (topic : CString) (payload : List UInt8) (retained : Bool)
  | publish_P (topic : CString) (payload : List UInt8) (retained : Bool)
  | publishInParts (topic : CString) (parts : List (List UInt8)) (retained : Bool)
  | subscribe (topic : CString) (qos : UInt8)
  | unsubscribe (topic : CString)
  | loop (t : UInt32)
  | disconnect
  | lost

namespace Session

/-- The session stands, and so does the connection. -/
def up (s : Session) : Bool :=
  s.linked && decide (s.state = MQTT_CONNECTED)

/-- The connection is given up. -/
def drop (s : Session) : Session :=
  { s with linked := false, inbox := [] }

/-- A session that has lost its connection notices it. -/
def checked (s : Session) : Session :=
  if s.linked = false ∧ s.state = MQTT_CONNECTED then
    { s.drop with state := MQTT_CONNECTION_LOST }
  else s

/-- A packet goes out if the connection stands. -/
def put (s : Session) (p : Packet) : Session :=
  { s with outbox := if s.linked then s.outbox ++ [p] else s.outbox }

/-- A packet goes out at a time. -/
def send (s : Session) (p : Packet) (now : UInt32) : Session :=
  { s.put p with lastOutActivity := now }

variable (size : Nat)

/-- A message goes out if there is room for it in the buffer. -/
def publish (s : Session) (topic : CString) (payload : List UInt8) (retained : Bool)
    (now : UInt32) : Session :=
  if s.up then
    if size < 7 + topic.1.length + payload.length then s
    else s.send (.publish ⟨false, retained, none, topic.1, payload⟩) now
  else s.checked

/-- A subscription takes the next id. -/
def subscribe (s : Session) (topic : CString) (qos : UInt8) (now : UInt32) : Session :=
  if 1 < qos ∨ size < 9 + topic.1.length then s
  else if s.up then
    { s.send (.subscribe (PubSubClient.nextId s.nextMsgId) topic.1 qos) now with
      nextMsgId := PubSubClient.nextId s.nextMsgId }
  else s.checked

/-- The end of a subscription takes the next id. -/
def unsubscribe (s : Session) (topic : CString) (now : UInt32) : Session :=
  if size < 9 + topic.1.length then s
  else if s.up then
    { s.send (.unsubscribe (PubSubClient.nextId s.nextMsgId) topic.1) now with
      nextMsgId := PubSubClient.nextId s.nextMsgId }
  else s.checked

/-- The session is ended, with a packet if the connection stands. -/
def disconnect (s : Session) (now : UInt32) : Session :=
  { (s.put .disconnect).drop with
    state := MQTT_DISCONNECTED, lastInActivity := now, lastOutActivity := now }

/-- What the application or its callback asks for. -/
def request (now : UInt32) (s : Session) : Request → Session
  | .publish topic payload retained => s.publish size topic payload retained now
  | .subscribe topic qos => s.subscribe size topic qos now
  | .unsubscribe topic => s.unsubscribe size topic now
  | .disconnect => s.disconnect now

/-- Where the payload of a message begins in its packet. -/
def payloadAt (m : Publish) : Nat :=
  1 + (lengthBytes 4 m.body.length).length + 2 + m.topic.length + if m.id.isSome then 2 else 0

/-- What the callback is given of a message: a topic ends with its first zero, and a payload
where the buffer does. -/
def message (m : Publish) : Message :=
  ⟨m.topic.takeWhile (· ≠ 0), m.payload.take (size - payloadAt m)⟩

/-- A message is handed to the callback, and acknowledged if it has an id. -/
def deliver (callback : Callback) (s : Session) (m : Publish) (t now : UInt32) : Session :=
  let s := (callback (message size m)).foldl (request size now)
    { s with calls := s.calls ++ [message size m] }
  match m.id with
  | none => s
  | some id => s.send (.puback id) t

/-- What the client does with a packet. Most packets only show that the broker is there. -/
def handle (callback : Option Callback) (s : Session) (p : Packet) (t now : UInt32) : Session :=
  let s := { s with lastInActivity := t }
  match p with
  | .publish m =>
    match callback with
    | some callback => s.deliver size callback m t now
    | none => s
  | .pingreq => s.put .pingresp
  | .pingresp => { s with pingOutstanding := false }
  | _ => s

/-- A packet is passed over if there is no room for it and no stream. -/
def ignores (s : Session) (p : Packet) : Prop :=
  s.stream = none ∧ size < p.encode.length

instance (s : Session) (p : Packet) : Decidable (s.ignores size p) :=
  inferInstanceAs (Decidable (_ ∧ _))

/-- The next packet, if there is one to handle. -/
def receive (callback : Option Callback) (ready : Bool) (s : Session) (t now : UInt32) : Session :=
  if ready then
    match s.inbox with
    | [] => s
    | p :: inbox =>
      let s' := { s with inbox, stream := s.stream.map (· ++ PubSubClient.payloadOf p.frame) }
      if s.ignores size p then s' else s'.handle size callback p t now
  else s

/-- A ping is due. -/
def idle (s : Session) (t : UInt32) : Prop :=
  UInt32.ofNat s.keepAlive.toNat * 1000 < t - s.lastInActivity ∨
    UInt32.ofNat s.keepAlive.toNat * 1000 < t - s.lastOutActivity

instance (s : Session) (t : UInt32) : Decidable (s.idle t) :=
  inferInstanceAs (Decidable (_ ∨ _))

/-- A turn of the loop: the pings first, and then a packet if there is one. -/
def loop (callback : Option Callback) (ready : Bool) (s : Session) (t now : UInt32) : Session :=
  if s.up then
    if s.idle t then
      if s.pingOutstanding then { s.drop with state := MQTT_CONNECTION_TIMEOUT }
      else
        { s.put .pingreq with
          lastOutActivity := t, lastInActivity := t, pingOutstanding := true }.receive
            size callback ready t now
    else s.receive size callback ready t now
  else s.checked

/-- A message whose payload does not go through the buffer. -/
def publishDirectly (s : Session) (topic : CString) (payload : List UInt8) (retained : Bool)
    (now : UInt32) : Session :=
  if s.up then s.send (.publish ⟨false, retained, none, topic.1, payload⟩) now else s.checked

/-- One call of the application at a time, with whether there is a packet to handle. -/
def step (callback : Option Callback) (ready : Bool) (now : UInt32) (s : Session) :
    Event → Session
  | .publish topic payload retained => s.publish size topic payload retained now
  | .publish_P topic payload retained => s.publishDirectly topic payload retained now
  | .publishInParts topic parts retained => s.publishDirectly topic parts.flatten retained now
  | .subscribe topic qos => s.subscribe size topic qos now
  | .unsubscribe topic => s.unsubscribe size topic now
  | .loop t => s.loop size callback ready t now
  | .disconnect => s.disconnect now
  | .lost => s.drop

end Session

variable {bufferSize : UInt16}

namespace PubSubClient

/-- A message that the application writes in parts, which is over when it could not begin. -/
def publishInParts (c : PubSubClient bufferSize) (topic : CString) (parts : List (List UInt8))
    (retained : Bool) (now : UInt32) : Except Fault (PubSubClient bufferSize) := do
  let (begun, c) ← c.beginPublish topic parts.flatten.length retained now
  if begun then return parts.foldl (fun c part => (c.write part now).2) c else return c

/-- One call of the application. -/
def step (callback : Option Callback) (now : UInt32) (c : PubSubClient bufferSize) :
    Event → Except Fault (PubSubClient bufferSize)
  | .publish topic payload retained => (c.publish topic payload retained now).map (·.2)
  | .publish_P topic payload retained => (c.publish_P topic payload retained now).map (·.2)
  | .publishInParts topic parts retained => c.publishInParts topic parts retained now
  | .subscribe topic qos => (c.subscribe topic qos now).map (·.2)
  | .unsubscribe topic => (c.unsubscribe topic now).map (·.2)
  | .loop t => (c.loop callback t now).map (·.2)
  | .disconnect => c.disconnect now
  | .lost => .ok { c with _client := c._client.stop }

/-! ### Refinement -/

/-- The session of a client, with its packets. -/
def session (c : PubSubClient bufferSize) (inbox outbox : List Packet) : Session where
  linked := c._client.connected
  state := c._state
  inbox := inbox
  outbox := outbox
  calls := c.calls
  stream := c.stream
  nextMsgId := c.nextMsgId
  lastOutActivity := c.lastOutActivity
  lastInActivity := c.lastInActivity
  pingOutstanding := c.pingOutstanding
  keepAlive := c.keepAlive

/-- The broker's packets are ones of MQTT, and with a stream the payload of a message begins
inside the buffer. -/
def Expected (bufferSize : UInt16) (stream : Option (List UInt8)) (p : Packet) : Prop :=
  p.Fits ∧ ∀ m, p = .publish m → stream ≠ none → Session.payloadAt m ≤ bufferSize.toNat

/-- The client has the packets of the session in bytes, and its connection takes all that is
written and keeps no one waiting inside a packet. -/
structure Refines (c : PubSubClient bufferSize) (s : Session) : Prop where
  same : s = c.session s.inbox s.outbox
  accepts : c._client.accepts = []
  sent : c._client.sent = encodeAll s.outbox
  coming : s.linked = true → Prompt c._client.source.ticks ∧
    items c._client.source.ticks = encodeAll s.inbox ∧ c._client.source.ending = .stays
  expected : ∀ p ∈ s.inbox, Expected bufferSize s.stream p
  outgoing : ∀ p ∈ s.outbox, p.Fits

namespace Refines

variable {c : PubSubClient bufferSize} {s : Session}

/-- The session is linked exactly if the client's connection is. -/
theorem linked (h : Refines c s) : s.linked = c._client.connected := by
  rw [h.same, session]

/-- The session's state is the object's. -/
theorem state (h : Refines c s) : s.state = c._state := by
  rw [h.same, session]

/-- A linked session's connection takes what is written. -/
theorem takes (h : Refines c s) (hlinked : s.linked = true) : c._client.Takes :=
  ⟨h.linked ▸ hlinked, h.accepts⟩

/-- The session is up exactly if the object is. -/
theorem up_iff (h : Refines c s) : s.up = true ↔ c.Up := by
  rw [Session.up, Bool.and_eq_true, decide_eq_true_iff, h.linked, h.state, Up]

/-- What stands in the buffer makes no difference. -/
theorem buffer (h : Refines c s) (b : Block bufferSize.toNat) :
    Refines { c with buffer := b } s :=
  ⟨h.same, h.accepts, h.sent, h.coming, h.expected, h.outgoing⟩

/-- A connection that is given up. -/
theorem stop (h : Refines c s) : Refines { c with _client := c._client.stop } s.drop := by
  refine ⟨?_, h.accepts, h.sent, fun hlinked => (by cases hlinked), fun p hp => (by cases hp),
    h.outgoing⟩
  rw [Session.drop, h.same]
  rfl

/-- A packet that is written if the connection stands. -/
theorem put (h : Refines c s) (p : Packet) (hp : p.Fits) :
    Refines { c with _client := (c._client.write p.encode).2 } (s.put p) := by
  -- off the link neither the object nor the session sends anything
  by_cases hlinked : s.linked = true
  · rw [Link.write_of_takes (h.takes hlinked), Session.put, if_pos hlinked]
    refine ⟨?_, h.accepts, ?_, h.coming, h.expected, fun q hq => ?_⟩
    · conv_lhs => rw [h.same]
      rfl
    · change c._client.sent ++ p.encode = encodeAll (s.outbox ++ [p])
      rw [MqttPackets.encodeAll_append, MqttPackets.encodeAll_singleton, h.sent]
    · rcases List.mem_append.1 hq with hq | hq
      · exact h.outgoing q hq
      · rwa [List.mem_singleton.1 hq]
  · have hdown : ¬ c._client.connected = true := by rwa [← h.linked]
    rw [Link.write, if_neg hdown, Session.put, if_neg hlinked]
    exact h

/-- The session of a client that changed what is not in its packets. -/
theorem update (h : Refines c s) (c' : PubSubClient bufferSize) (s' : Session)
    (hclient : c'._client = c._client) (hstream : s'.stream = s.stream)
    (hin : s'.inbox = s.inbox) (hout : s'.outbox = s.outbox) (hlinked : s'.linked = s.linked)
    (hsame : s' = c'.session s'.inbox s'.outbox) : Refines c' s' :=
  ⟨hsame, by rw [hclient]; exact h.accepts, by rw [hclient, hout]; exact h.sent,
    by rw [hclient, hlinked, hin]; exact h.coming, by rw [hin, hstream]; exact h.expected,
    by rw [hout]; exact h.outgoing⟩

/-- A packet that is written in whatever way, at a time. -/
theorem sentAll (h : Refines c s) (hlinked : s.linked = true) (p : Packet) (hp : p.Fits)
    (now : UInt32) (b : Block bufferSize.toNat) :
    Refines { c.sentAll p.encode now with buffer := b } (s.send p now) := by
  have hput := h.put p hp
  rw [Link.write_of_takes (h.takes hlinked)] at hput
  refine (hput.buffer b).update _ _ rfl rfl rfl rfl rfl ?_
  rw [Session.send]
  conv_lhs => rw [hput.same]
  rfl

/-- The connection is checked. -/
theorem checked (h : Refines c s) : Refines c.connected.2 s.checked := by
  rw [connected, Session.checked]
  by_cases hlinked : c._client.connected = true
  · rw [if_pos hlinked, if_neg (by rw [h.linked, hlinked]; exact fun h => Bool.noConfusion h.1)]
    exact h
  · have hlinked' : s.linked = false := by
      rw [h.linked]
      exact Bool.eq_false_iff.2 hlinked
    rw [if_neg hlinked]
    -- a link that went down is noticed once, and closed
    by_cases hstate : c._state = MQTT_CONNECTED
    · rw [if_pos hstate, if_pos ⟨hlinked', h.state.trans hstate⟩]
      refine h.stop.update _ _ rfl rfl rfl rfl rfl ?_
      conv_lhs => rw [h.stop.same]
      rfl
    · rw [if_neg hstate, if_neg fun h' => hstate (h.state.symm.trans h'.2)]
      exact h

end Refines

/-- A call that comes to an end, in a client that refines the session. -/
def Simulates (r : Except Fault (PubSubClient bufferSize)) (s : Session) : Prop :=
  ∃ c, r = .ok c ∧ Refines c s

/-- `connected` of an object that is not up is false. -/
theorem connected_of_not_up {c : PubSubClient bufferSize} (h : ¬ c.Up) :
    c.connected = (false, c.connected.2) := by
  rw [connected]
  by_cases hlinked : c._client.connected = true
  · rw [if_pos hlinked, decide_eq_false fun hstate => h ⟨hlinked, hstate⟩]
  · rw [if_neg hlinked]
    split_ifs <;> rfl

variable {c : PubSubClient bufferSize} {s : Session}

/-- A packet that the client writes when the session has begun. -/
theorem simulates_sent (h : Refines c s) (hup : c.Up) (p : Packet) (hp : p.Fits) (now : UInt32)
    (b : Block bufferSize.toNat) :
    Refines { c.wrote p.encode now with buffer := b } (s.send p now) := by
  have hlinked : s.linked = true := h.linked.trans hup.1
  rw [wrote_of_takes (h.takes hlinked)]
  exact h.sentAll hlinked p hp now b

/-- `publish` does what the session does. -/
theorem refines_publish (h : Refines c s) (topic : CString) (payload : List UInt8)
    (retained : Bool) (now : UInt32) (hpayload : payload.length < 2 ^ 31) :
    Simulates ((c.publish topic payload retained now).map (·.2))
      (s.publish bufferSize.toNat topic payload retained now) := by
  have hsize := bufferSize.toNat_lt
  by_cases hup : c.Up
  · rw [Session.publish, if_pos (h.up_iff.2 hup)]
    -- the size test refuses what does not fit, on both sides
    by_cases hroom : bufferSize.toNat < 7 + topic.1.length + payload.length
    · rw [publish_refused topic payload retained now hpayload hroom, connected_of_up hup,
        if_pos hroom]
      exact ⟨c, rfl, h⟩
    · obtain ⟨b, hpublish⟩ := publish_spec hup topic payload retained now (by omega)
      rw [hpublish, if_neg hroom]
      have hfits : (Packet.publish ⟨false, retained, none, topic.1, payload⟩).Fits :=
        ⟨by dsimp only; omega, by dsimp only; omega⟩
      exact ⟨_, rfl, simulates_sent h hup _ hfits now b⟩
  · rw [Session.publish, if_neg fun h' => hup (h.up_iff.1 h'), publish, connected_of_not_up hup]
    exact ⟨_, rfl, h.checked⟩

/-- The next id, and a packet that has it. -/
theorem simulates_request (h : Refines c s) (hup : c.Up) (p : Packet) (hp : p.Fits)
    (now : UInt32) (b : Block bufferSize.toNat) :
    Refines { c.wrote p.encode now with buffer := b, nextMsgId := nextId c.nextMsgId }
      { s.send p now with nextMsgId := nextId s.nextMsgId } := by
  have hsent := simulates_sent h hup p hp now b
  have hid : s.nextMsgId = c.nextMsgId := by rw [h.same, session]
  refine hsent.update _ _ rfl rfl rfl rfl rfl ?_
  rw [hid]
  conv_lhs => rw [hsent.same]
  rfl

/-- One byte of a topic that just seems to fit has no room. -/
def Subscribable (bufferSize : UInt16) (topic : CString) (qos : UInt8) : Prop :=
  1 < qos ∨ bufferSize.toNat ≠ 9 + topic.1.length

/-- `subscribe` does what the session does. -/
theorem refines_subscribe (h : Refines c s) (topic : CString) (qos : UInt8) (now : UInt32)
    (hsafe : Subscribable bufferSize topic qos) :
    Simulates ((c.subscribe topic qos now).map (·.2))
      (s.subscribe bufferSize.toNat topic qos now) := by
  have hsize := bufferSize.toNat_lt
  have hid : s.nextMsgId = c.nextMsgId := by rw [h.same, session]
  -- a refused subscription touches neither
  by_cases hrefused : 1 < qos ∨ bufferSize.toNat < 9 + topic.1.length
  · rw [subscribe_refused topic qos now hrefused, Session.subscribe, if_pos hrefused]
    exact ⟨c, rfl, h⟩
  · have hqos : qos ≤ 1 := UInt8.not_lt.1 fun h' => hrefused (Or.inl h')
    have hroom : 10 + topic.1.length ≤ bufferSize.toNat := by
      have := hsafe.resolve_left fun h' => hrefused (Or.inl h')
      have := fun h' => hrefused (Or.inr h')
      omega
    rw [Session.subscribe, if_neg hrefused]
    by_cases hup : c.Up
    · obtain ⟨b, hsubscribe⟩ := subscribe_spec hup topic qos now hqos hroom
      have hfits : (Packet.subscribe (nextId c.nextMsgId) topic.1 qos).Fits := by
        change topic.1.length < 65536
        omega
      rw [if_pos (h.up_iff.2 hup), hsubscribe, hid]
      have hsim := simulates_request h hup _ hfits now b
      rw [hid] at hsim
      exact ⟨_, rfl, hsim⟩
    · have hlen : strnlen topic bufferSize.toNat = topic.1.length := Nat.min_eq_left (by omega)
      rw [if_neg fun h' => hup (h.up_iff.1 h'), subscribe, if_neg (UInt8.not_lt.2 hqos), hlen,
        if_neg (by omega), connected_of_not_up hup]
      exact ⟨_, rfl, h.checked⟩

/-- `unsubscribe` does what the session does. -/
theorem refines_unsubscribe (h : Refines c s) (topic : CString) (now : UInt32) :
    Simulates ((c.unsubscribe topic now).map (·.2))
      (s.unsubscribe bufferSize.toNat topic now) := by
  have hsize := bufferSize.toNat_lt
  have hid : s.nextMsgId = c.nextMsgId := by rw [h.same, session]
  by_cases hrefused : bufferSize.toNat < 9 + topic.1.length
  · rw [unsubscribe_refused topic now hrefused, Session.unsubscribe, if_pos hrefused]
    exact ⟨c, rfl, h⟩
  · rw [Session.unsubscribe, if_neg hrefused]
    by_cases hup : c.Up
    · obtain ⟨b, hunsubscribe⟩ := unsubscribe_spec hup topic now (by omega)
      have hfits : (Packet.unsubscribe (nextId c.nextMsgId) topic.1).Fits := by
        change topic.1.length < 65536
        omega
      rw [if_pos (h.up_iff.2 hup), hunsubscribe, hid]
      have hsim := simulates_request h hup _ hfits now b
      rw [hid] at hsim
      exact ⟨_, rfl, hsim⟩
    · have hlen : strnlen topic bufferSize.toNat = topic.1.length := Nat.min_eq_left (by omega)
      rw [if_neg fun h' => hup (h.up_iff.1 h'), unsubscribe, hlen, if_neg (by omega),
        connected_of_not_up hup]
      exact ⟨_, rfl, h.checked⟩

/-- `disconnect` does what the session does. -/
theorem refines_disconnect (h : Refines c s) (now : UInt32) (hsize : 2 ≤ bufferSize.toNat) :
    Simulates (c.disconnect now) (s.disconnect now) := by
  -- the packet goes out before the link is closed
  obtain ⟨b, hstore⟩ := exists_store c.buffer 0 [224, 0] hsize
  have hput := ((h.put .disconnect trivial).buffer b).stop
  refine ⟨{ c with
      buffer := b, _client := (c._client.write [224, 0]).2.stop, _state := MQTT_DISCONNECTED
      lastInActivity := now, lastOutActivity := now }, ?_, ?_⟩
  · rw [disconnect, hstore]
    rfl
  · refine hput.update _ _ rfl rfl rfl rfl rfl ?_
    rw [Session.disconnect]
    conv_lhs => rw [hput.same]
    rfl

/-- A call of the callback for which there is room. -/
def Safe (bufferSize : UInt16) : Request → Prop
  | .publish _ payload _ => payload.length < 2 ^ 31
  | .subscribe topic qos => Subscribable bufferSize topic qos
  | .unsubscribe _ => True
  | .disconnect => True

/-- A safe request does what the session does. -/
theorem refines_request (h : Refines c s) (now : UInt32) (r : Request) (hr : Safe bufferSize r)
    (hsize : 2 ≤ bufferSize.toNat) :
    Simulates (c.request now r) (s.request bufferSize.toNat now r) := by
  cases r with
  | publish topic payload retained => exact refines_publish h topic payload retained now hr
  | subscribe topic qos => exact refines_subscribe h topic qos now hr
  | unsubscribe topic => exact refines_unsubscribe h topic now
  | disconnect => exact refines_disconnect h now hsize

/-- What the callback calls, one call after the other. -/
theorem refines_requests (rs : List Request) (hsize : 2 ≤ bufferSize.toNat)
    (hrs : ∀ r ∈ rs, Safe bufferSize r) (now : UInt32) (c : PubSubClient bufferSize) (s : Session)
    (h : Refines c s) :
    Simulates (rs.foldlM (fun c r => c.request now r) c)
      (rs.foldl (Session.request bufferSize.toNat now) s) := by
  induction rs generalizing c s with
  | nil => exact ⟨c, rfl, h⟩
  | cons r rs ih =>
      obtain ⟨c', hstep, h'⟩ := refines_request h now r (hrs r List.mem_cons_self) hsize
      obtain ⟨c'', hrest, h''⟩ :=
        ih (fun r' hr' => hrs r' (List.mem_cons_of_mem r hr')) c' _ h'
      refine ⟨c'', ?_, h''⟩
      rw [List.foldlM_cons, hstep]
      exact hrest

/-! ### Messages that come -/

/-- The C string at a place is the topic up to its first zero. -/
theorem takeWhile_placed {bytes : List UInt8} {pos : Nat} {topic : List UInt8}
    (h : Placed bytes pos (topic ++ [0])) :
    (bytes.drop pos).takeWhile (· ≠ 0) = topic.takeWhile (· ≠ 0) := by
  -- the topic has no zero of its own, so the C string ends at the one behind it
  have hsplit : bytes.drop pos = (topic ++ [0]) ++ (bytes.drop pos).drop (topic ++ [0]).length := by
    conv_lhs => rw [← List.take_append_drop (topic ++ [0]).length (bytes.drop pos), h.take]
  rw [hsplit, List.append_assoc, List.takeWhile_append]
  split_ifs with hall
  · have hzero : (([0] : List UInt8) ++ (bytes.drop pos).drop (topic ++ [0]).length).takeWhile
        (fun b : UInt8 => decide (b ≠ 0)) = [] := by
      rw [List.singleton_append]
      exact List.takeWhile_cons_of_neg (by decide)
    rw [hzero, List.append_nil]
    exact (List.takeWhile_prefix _).eq_of_length hall |>.symm
  · rfl

/-- The id of a message in bytes. -/
def idBytes (m : Publish) : List UInt8 :=
  match m.id with
  | none => []
  | some id => word id.toNat

/-- The parts of a message in the buffer. -/
structure Laid (b : Block bufferSize.toNat) (m : Publish) : Prop where
  header : Placed b.1 0 [m.header]
  size : Placed b.1 ((lengthBytes 4 m.body.length).length + 1) (word m.topic.length)
  topic : Placed b.1 ((lengthBytes 4 m.body.length).length + 3) m.topic
  id : Placed b.1 ((lengthBytes 4 m.body.length).length + 3 + m.topic.length) (idBytes m)
  payload : Placed b.1 (Session.payloadAt m)
    (m.payload.take (bufferSize.toNat - Session.payloadAt m))

/-- The identifier takes two bytes or none. -/
theorem length_idBytes (m : Publish) : (idBytes m).length = if m.id.isSome then 2 else 0 := by
  rw [idBytes]
  cases m.id with
  | none => rfl
  | some id => rfl

theorem length_publish (m : Publish) :
    (Packet.publish m).encode.length = Session.payloadAt m + m.payload.length := by
  have hbody : m.body.length = 2 + m.topic.length + (idBytes m).length + m.payload.length := by
    change (text m.topic ++ (idBytes m ++ m.payload)).length = _
    rw [List.length_append, List.length_append, MqttPackets.length_text]
    omega
  change (m.header :: (lengthBytes 4 m.body.length ++ m.body)).length = _
  rw [List.length_cons, List.length_append, Session.payloadAt, hbody, length_idBytes]
  omega

/-- A message that was read stands in the buffer with its parts. -/
theorem laid_of_placed {b : Block bufferSize.toNat} {m : Publish}
    (h : Placed b.1 0 ((Packet.publish m).encode.take bufferSize.toNat))
    (hfits : Session.payloadAt m ≤ bufferSize.toNat) : Laid b m := by
  obtain ⟨digits, hdigits⟩ : ∃ digits, digits = lengthBytes 4 m.body.length := ⟨_, rfl⟩
  -- what stands in front of the payload always fits, the payload perhaps not
  have hencode : (Packet.publish m).encode =
      ([m.header] ++ (digits ++ (word m.topic.length ++ (m.topic ++ idBytes m)))) ++
        m.payload := by
    rw [hdigits]
    change m.header :: (lengthBytes 4 m.body.length ++ (text m.topic ++
      (idBytes m ++ m.payload))) = _
    simp only [text, List.append_assoc, List.cons_append, List.nil_append]
  have hfront : ([m.header] ++ (digits ++ (word m.topic.length ++ (m.topic ++ idBytes m)))).length =
      Session.payloadAt m := by
    rw [Session.payloadAt, ← hdigits, ← length_idBytes]
    simp only [List.length_append, List.length_singleton, MqttPackets.length_word]
    omega
  rw [hencode, List.take_append, List.take_of_length_le (by omega), hfront] at h
  -- header, digits, topic length, topic and identifier stand one behind the other
  have hh := h.left
  have hrest := hh.right
  have hw := hrest.right
  have ht := hw.right
  rw [List.length_singleton, Nat.zero_add] at hrest hw ht
  have h1 : 1 + digits.length = (lengthBytes 4 m.body.length).length + 1 := by
    rw [← hdigits]
    omega
  rw [h1] at hw ht
  have ht' := ht.left
  have hi := ht.right
  rw [MqttPackets.length_word] at ht' hi
  refine ⟨hh.left, hw.left, ht', hi, ?_⟩
  have hp := h.right
  rwa [hfront, Nat.zero_add] at hp

/-- The two bytes of a length are the length. -/
theorem word_value {bytes : List UInt8} {pos n : Nat} (h : Placed bytes pos (word n))
    (hn : n < 65536) : ∃ hi lo, byte bytes pos = .ok hi ∧ byte bytes (pos + 1) = .ok lo ∧
      hi.toNat * 256 + lo.toNat = n ∧ word n = [hi, lo] := by
  refine ⟨UInt8.ofNat (n / 256), UInt8.ofNat (n % 256), ?_, ?_, ?_, rfl⟩
  · exact (CheckedBytes.Placed.left (d := [UInt8.ofNat (n / 256)]) h).byte
  · exact (CheckedBytes.Placed.right (d := [UInt8.ofNat (n / 256)]) h).byte
  · rw [UInt8.toNat_ofNat', UInt8.toNat_ofNat']
    omega

theorem unsigned_sub {a b : Nat} (h : b ≤ a) (ha : a < 2 ^ 32) :
    unsigned ((a : Int) - b) = a - b := by
  rw [unsigned]
  omega

/-- The header of a message says whether it has an id. -/
theorem header_bits (m : Publish) :
    m.header &&& 0xF0 = 48 ∧ (m.header &&& 6 = 2 ↔ m.id.isSome = true) := by
  have hbits : ∀ dup some retain : Bool,
      let header := UInt8.ofNat (48 + MqttPackets.flag dup 8 + MqttPackets.flag some 2 +
        MqttPackets.flag retain 1)
      header &&& 0xF0 = 48 ∧ (header &&& 6 = 2 ↔ some = true) := by
    decide +kernel
  exact hbits m.dup m.id.isSome m.retain

/-- The topic is moved one byte to the front, and ended. -/
theorem endTopic_spec (b : Block bufferSize.toNat) (m : Publish) (h : Laid b m)
    (hfits : Session.payloadAt m ≤ bufferSize.toNat) (htopic : m.topic.length < 65536) :
    ∃ b1 b2, memmove b ((lengthBytes 4 m.body.length).length + 2)
        ((lengthBytes 4 m.body.length).length + 3) m.topic.length = .ok b1 ∧
      store b1 ((lengthBytes 4 m.body.length).length + 2 + m.topic.length) [0] = .ok b2 ∧
      Placed b2.1 0 [m.header] ∧
      Placed b2.1 ((lengthBytes 4 m.body.length).length + 2) (m.topic ++ [0]) ∧
      Placed b2.1 ((lengthBytes 4 m.body.length).length + 3 + m.topic.length) (idBytes m) ∧
      Placed b2.1 (Session.payloadAt m)
        (m.payload.take (bufferSize.toNat - Session.payloadAt m)) := by
  have hat : Session.payloadAt m = 1 + (lengthBytes 4 m.body.length).length + 2 +
      m.topic.length + (idBytes m).length := by
    rw [Session.payloadAt, length_idBytes]
  obtain ⟨hheader, -, htopic', hid, hpayload⟩ := h
  -- the topic moves one byte down, to make room for the zero
  obtain ⟨data, hload, hdata⟩ := htopic'.load (by rw [b.2]; omega) m.topic.length rfl
  obtain ⟨b1, hstore1⟩ := exists_store b ((lengthBytes 4 m.body.length).length + 2) data.1
    (by rw [data.2]; omega)
  obtain ⟨b2, hstore2⟩ := exists_store b1
    ((lengthBytes 4 m.body.length).length + 2 + m.topic.length) [0]
    (by rw [List.length_singleton]; omega)
  refine ⟨b1, b2, ?_, hstore2, ?_, ?_, ?_, ?_⟩
  · rw [memmove, hload]
    exact hstore1
  · refine (hheader.store hstore1 (Or.inl ?_)).store hstore2 (Or.inl ?_) <;>
      rw [List.length_singleton] <;> omega
  · refine Placed.append ?_ (placed_store hstore2)
    rw [← hdata]
    refine (placed_store hstore1).store hstore2 (Or.inl ?_)
    rw [data.2]
  -- what lies behind the topic is touched by neither store
  · refine (hid.store hstore1 (Or.inr ?_)).store hstore2 (Or.inr ?_)
    · rw [data.2]
      omega
    · rw [List.length_singleton]
      omega
  · refine (hpayload.store hstore1 (Or.inr ?_)).store hstore2 (Or.inr ?_)
    · rw [data.2]
      omega
    · rw [List.length_singleton]
      omega

/-- What `handlePublish` does behind the topic, in the buffer where the topic is ended. -/
theorem handlePublish_of_endTopic (callback : Callback) (c : PubSubClient bufferSize) (m : Publish)
    {len llen : Nat} (t now : UInt32) {b1 b2 : Block bufferSize.toNat}
    (hsize : Placed c.buffer.1 (llen + 1) (word m.topic.length)) (htopic : m.topic.length < 65536)
    (hmove : memmove c.buffer (llen + 2) (llen + 3) m.topic.length = .ok b1)
    (hend : store b1 (llen + 2 + m.topic.length) [0] = .ok b2)
    (hheader : Placed b2.1 0 [m.header]) :
    c.handlePublish callback len llen t now =
      (if m.header &&& 6 = 2 then do
        let hi ← byte b2.1 (llen + 3 + m.topic.length)
        let lo ← byte b2.1 (llen + 3 + m.topic.length + 1)
        let payload ← load b2.1 (llen + 3 + m.topic.length + 2)
          (unsigned (len - llen - 3 - m.topic.length - 2))
        let c ← call callback { c with buffer := b2 }
          ⟨(b2.1.drop (llen + 2)).takeWhile (· ≠ 0), payload.1⟩ now
        let buffer ← store c.buffer 0 [64, 2, hi, lo]
        return { c with
          buffer, _client := (c._client.write [64, 2, hi, lo]).2, lastOutActivity := t }
      else do
        let payload ← load b2.1 (llen + 3 + m.topic.length)
          (unsigned (len - llen - 3 - m.topic.length))
        call callback { c with buffer := b2 }
          ⟨(b2.1.drop (llen + 2)).takeWhile (· ≠ 0), payload.1⟩ now) := by
  -- each access of the handler, in the order of the source
  obtain ⟨hi, lo, hhi, hlo, hvalue, -⟩ := word_value hsize htopic
  rw [handlePublish, hhi]
  change (byte c.buffer.1 (llen + 1 + 1) >>= _) = _
  rw [hlo]
  change (memmove c.buffer (llen + 2) (llen + 3) (hi.toNat * 256 + lo.toNat) >>= _) = _
  rw [hvalue, hmove]
  change (store b1 (llen + 2 + m.topic.length) [0] >>= _) = _
  rw [hend]
  change (byte b2.1 0 >>= _) = _
  rw [hheader.byte]
  rfl

/-- The payload is what is left of the packet, which is counted without a sign. -/
theorem unsigned_payload (m : Publish) {len llen : Nat}
    (hat : Session.payloadAt m = llen + 3 + m.topic.length + (idBytes m).length)
    (hle : Session.payloadAt m ≤ len) (hlen : len < 2 ^ 32) :
    unsigned ((len : Int) - llen - 3 - m.topic.length - (idBytes m).length) =
      len - Session.payloadAt m := by
  rw [← unsigned_sub hle hlen, hat]
  push_cast
  congr 1
  omega

/-- The callback is handed the message, and the broker the id. -/
theorem handlePublish_spec (callback : Callback) (c : PubSubClient bufferSize) (m : Publish)
    (len : Nat) (t now : UInt32) (h : Laid c.buffer m) (htopic : m.topic.length < 65536)
    (hfits : Session.payloadAt m ≤ bufferSize.toNat)
    (hlen : len = min (Packet.publish m).encode.length bufferSize.toNat) :
    ∃ b, c.handlePublish callback len (lengthBytes 4 m.body.length).length t now =
      m.id.elim
        (call callback { c with buffer := b } (Session.message bufferSize.toNat m) now)
        fun id => do
          let c ← call callback { c with buffer := b } (Session.message bufferSize.toNat m) now
          let buffer ← store c.buffer 0 (64 :: 2 :: word id.toNat)
          return { c with
            buffer, _client := (c._client.write (64 :: 2 :: word id.toNat)).2
            lastOutActivity := t } := by
  have hsize := bufferSize.toNat_lt
  have hlarge := length_publish m
  have hat : Session.payloadAt m = (lengthBytes 4 m.body.length).length + 3 +
      m.topic.length + (idBytes m).length := by
    rw [Session.payloadAt, length_idBytes]
    omega
  -- the length of the topic is read from where the packet put it
  have hsize' := h.size
  obtain ⟨b1, b2, hmove, hend, hheader, htopic', hid, hpayload⟩ :=
    endTopic_spec c.buffer m h hfits htopic
  obtain ⟨llen, hllen⟩ : ∃ llen, llen = (lengthBytes 4 m.body.length).length := ⟨_, rfl⟩
  rw [← hllen] at hmove hend htopic' hid hat hsize' ⊢
  -- of the payload there is what the buffer has kept
  have hpay : (m.payload.take (bufferSize.toNat - Session.payloadAt m)).length =
      len - Session.payloadAt m := by
    rw [List.length_take]
    omega
  have hcount := unsigned_payload m hat (by omega : Session.payloadAt m ≤ len) (by omega)
  have hend' : Session.payloadAt m + (m.payload.take (bufferSize.toNat -
      Session.payloadAt m)).length ≤ b2.1.length := by
    rw [b2.2]
    omega
  obtain ⟨data, hload, hdata⟩ := hpayload.load hend' _ hpay.symm
  -- the callback sees the topic as a C string
  have hmessage : (⟨(b2.1.drop (llen + 2)).takeWhile (· ≠ 0), data.1⟩ : Message) =
      Session.message bufferSize.toNat m := by
    rw [hdata, takeWhile_placed htopic']
    rfl
  refine ⟨b2, ?_⟩
  rw [handlePublish_of_endTopic callback c m t now hsize' htopic hmove hend hheader]
  -- the identifier is read only where the header byte announces one
  cases hmid : m.id with
  | none =>
      have hbits : ¬ m.header &&& 6 = 2 := fun h' => by
        have := (header_bits m).2.1 h'
        rw [hmid] at this
        cases this
      have hnoid : (idBytes m).length = 0 := by rw [length_idBytes, hmid]; rfl
      rw [hnoid, Nat.cast_zero, Int.sub_zero] at hcount
      rw [hnoid, Nat.add_zero] at hat
      rw [if_neg hbits, hcount, ← hat, hload]
      change call callback _ ⟨_, data.1⟩ now = _
      rw [hmessage]
      rfl
  | some id =>
      have hbits : m.header &&& 6 = 2 := (header_bits m).2.2 (by rw [hmid]; rfl)
      have hids : (idBytes m).length = 2 := by rw [length_idBytes, hmid]; rfl
      have hid' : idBytes m = word id.toNat := by rw [idBytes, hmid]
      rw [hids] at hat
      rw [hids, Nat.cast_ofNat] at hcount
      rw [hid'] at hid
      obtain ⟨ih, il, hih, hil, -, hword⟩ := word_value hid id.toNat_lt
      rw [if_pos hbits, hih]
      change (byte b2.1 (llen + 3 + m.topic.length + 1) >>= _) = _
      rw [hil]
      change (load b2.1 (llen + 3 + m.topic.length + 2)
        (unsigned (len - llen - 3 - m.topic.length - 2)) >>= _) = _
      rw [hcount, ← hat, hload]
      change (call callback _ ⟨_, data.1⟩ now >>= _) = _
      rw [hmessage, Option.elim_some, hword]

/-- What the callback calls is safe, whatever message of the buffer it is called for. -/
def SafeCallback (bufferSize : UInt16) (callback : Callback) : Prop :=
  ∀ message, message.payload.length ≤ bufferSize.toNat → ∀ r ∈ callback message, Safe bufferSize r

theorem refines_call (h : Refines c s) (callback : Callback)
    (hsafe : SafeCallback bufferSize callback) (message : Message) (now : UInt32)
    (hmessage : message.payload.length ≤ bufferSize.toNat) (hsize : 2 ≤ bufferSize.toNat) :
    Simulates (call callback c message now)
      ((callback message).foldl (Session.request bufferSize.toNat now)
        { s with calls := s.calls ++ [message] }) := by
  refine refines_requests (callback message) hsize (hsafe message hmessage) now _ _ ?_
  refine h.update _ _ rfl rfl rfl rfl rfl ?_
  conv_lhs => rw [h.same]
  rfl

/-- A message in the buffer is handed to the callback. -/
theorem refines_deliver (h : Refines c s) (callback : Callback)
    (hsafe : SafeCallback bufferSize callback) (m : Publish) (len : Nat) (t now : UInt32)
    (hsize : 7 ≤ bufferSize.toNat) (hlaid : Laid c.buffer m) (htopic : m.topic.length < 65536)
    (hfits : Session.payloadAt m ≤ bufferSize.toNat)
    (hlen : len = min (Packet.publish m).encode.length bufferSize.toNat) :
    Simulates (c.handlePublish callback len (lengthBytes 4 m.body.length).length t now)
      (s.deliver bufferSize.toNat callback m t now) := by
  -- the handler calls the callback, and answers after it where an identifier asks for it
  obtain ⟨b, hhandle⟩ :=
    handlePublish_spec callback c m len t now hlaid htopic hfits hlen
  have hmessage : (Session.message bufferSize.toNat m).payload.length ≤ bufferSize.toNat :=
    (List.length_take_le _ _).trans (Nat.sub_le _ _)
  obtain ⟨c', hcall, h'⟩ := refines_call (h.buffer b) callback hsafe
    (Session.message bufferSize.toNat m) now hmessage (by omega)
  rw [hhandle, Session.deliver]
  cases m.id with
  | none => exact ⟨c', hcall, h'⟩
  | some id =>
      -- the callback's own requests have used the buffer, which is written afresh
      obtain ⟨b', hstore⟩ := exists_store c'.buffer 0 (64 :: 2 :: word id.toNat) (by
        change 0 + 4 ≤ _
        omega)
      have hput := (h'.put (.puback id) trivial).buffer b'
      refine ⟨{ c' with
          buffer := b', _client := (c'._client.write (64 :: 2 :: word id.toNat)).2
          lastOutActivity := t }, ?_, ?_⟩
      · change (call callback { c with buffer := b }
          (Session.message bufferSize.toNat m) now >>= _) = _
        rw [hcall]
        change (store c'.buffer 0 (64 :: 2 :: word id.toNat) >>= _) = _
        rw [hstore]
        rfl
      · refine hput.update _ _ rfl rfl rfl rfl rfl ?_
        dsimp only
        rw [Session.send]
        conv_lhs => rw [hput.same]
        rfl

/-- A packet in the buffer is handled. -/
theorem refines_handle (h : Refines c s) (callback : Option Callback)
    (hsafe : ∀ f ∈ callback, SafeCallback bufferSize f) (p : Packet) (len : Nat)
    (t now : UInt32) (hsize : 7 ≤ bufferSize.toNat)
    (hplaced : Placed c.buffer.1 0 (p.encode.take bufferSize.toNat))
    (hfits : ∀ m, p = .publish m → m.topic.length < 65536 ∧
      Session.payloadAt m ≤ bufferSize.toNat)
    (hlen : len = min p.encode.length bufferSize.toNat) :
    Simulates (handle callback c len (lengthBytes 4 p.frame.body.length).length t now)
      (s.handle bufferSize.toNat callback p t now) := by
  -- whatever was kept of the packet, its first byte is there
  have hheader : byte c.buffer.1 0 = .ok p.frame.header := by
    have hfirst : p.encode.take bufferSize.toNat = [p.frame.header] ++
        (p.encode.drop 1).take (bufferSize.toNat - 1) := by
      obtain ⟨k, hk⟩ := Nat.exists_eq_add_of_le' (show 1 ≤ bufferSize.toNat by omega)
      rw [hk, Nat.add_sub_cancel]
      rfl
    rw [hfirst] at hplaced
    exact hplaced.left.byte
  have hlast : Refines { c with lastInActivity := t } { s with lastInActivity := t } := by
    refine h.update _ _ rfl rfl rfl rfl rfl ?_
    conv_lhs => rw [h.same]
    rfl
  -- what the client has no use for only shows that the broker is there
  have hother : ∀ header : UInt8, p.frame.header = header → header &&& 0xF0 ≠ 48 →
      header &&& 0xF0 ≠ 192 → header &&& 0xF0 ≠ 208 →
      Simulates (handle callback c len (lengthBytes 4 p.frame.body.length).length t now)
        { s with lastInActivity := t } := by
    intro header hp h48 h192 h208
    rw [hp] at hheader
    refine ⟨_, ?_, hlast⟩
    change (byte c.buffer.1 0 >>= _) = _
    rw [hheader]
    change (if header &&& 0xF0 = 48 then _ else _) = _
    rw [if_neg h48, if_neg h192, if_neg h208]
    rfl
  -- one case for each type of packet, as the client tells them apart
  cases p with
  | publish m =>
      obtain ⟨htopic, hinside⟩ := hfits m rfl
      change Simulates (byte c.buffer.1 0 >>= _) _
      rw [hheader]
      change Simulates (if m.header &&& 0xF0 = 48 then _ else _) _
      rw [if_pos (header_bits m).1]
      cases callback with
      | none => exact ⟨_, rfl, hlast⟩
      | some callback =>
          exact refines_deliver hlast callback (hsafe callback rfl) m len t now hsize
            (laid_of_placed hplaced hinside) htopic hinside hlen
  | pingreq =>
      obtain ⟨b, hstore⟩ := exists_store c.buffer 0 [208, 0] (by change 0 + 2 ≤ _; omega)
      refine ⟨{ c with
        buffer := b, _client := (c._client.write [208, 0]).2, lastInActivity := t }, ?_,
          (hlast.put .pingresp trivial).buffer b⟩
      change (byte c.buffer.1 0 >>= _) = _
      rw [hheader]
      change (store c.buffer 0 [208, 0] >>= _) = _
      rw [hstore]
      rfl
  | pingresp =>
      refine ⟨{ c with lastInActivity := t, pingOutstanding := false }, ?_, ?_⟩
      · change (byte c.buffer.1 0 >>= _) = _
        rw [hheader]
        rfl
      · refine hlast.update _ { s with lastInActivity := t, pingOutstanding := false }
          rfl rfl rfl rfl rfl ?_
        conv_lhs => rw [h.same]
        rfl
  | connect _ => exact hother 16 rfl (by decide) (by decide) (by decide)
  | connack _ _ => exact hother 32 rfl (by decide) (by decide) (by decide)
  | puback _ => exact hother 64 rfl (by decide) (by decide) (by decide)
  | subscribe _ _ _ => exact hother 130 rfl (by decide) (by decide) (by decide)
  | suback _ _ => exact hother 144 rfl (by decide) (by decide) (by decide)
  | unsubscribe _ _ => exact hother 162 rfl (by decide) (by decide) (by decide)
  | unsuback _ => exact hother 176 rfl (by decide) (by decide) (by decide)
  | disconnect => exact hother 224 rfl (by decide) (by decide) (by decide)

/-! ### Packets that come -/

/-- Whether the client finds a packet to handle. -/
def ready (c : PubSubClient bufferSize) : Bool :=
  c._client.poll.1

theorem linked_of_ticks (h : Refines c s) (hne : c._client.source.ticks ≠ []) :
    s.linked = true := by
  rw [h.linked, Link.connected, Source.connected, Bool.or_eq_true]
  refine Or.inl ?_
  cases hticks : c._client.source.ticks with
  | nil => exact absurd hticks hne
  | cons x ticks => rfl

/-- Looking for a packet leaves the packets there, and a byte is one of a packet. -/
theorem poll_spec (h : Refines c s) :
    Refines { c with _client := c._client.poll.2 } s ∧ (c.ready = true → s.inbox ≠ []) := by
  -- a tick without a byte leaves what is to come as it was
  have hwait : ∀ x ticks, c._client.source.ticks = x :: ticks → items (x :: ticks) = items ticks →
      Refines { c with _client :=
        { c._client with source := { c._client.source with ticks } } } s := by
    intro x ticks hticks hitems
    have hlinked := linked_of_ticks h (by rw [hticks]; exact List.cons_ne_nil x ticks)
    obtain ⟨hprompt, hbox, hstays⟩ := h.coming hlinked
    rw [hticks] at hprompt hbox
    refine ⟨?_, h.accepts, h.sent, fun _ => ⟨hprompt.tail, by rwa [hitems] at hbox, hstays⟩,
      h.expected, h.outgoing⟩
    have hup : (!ticks.isEmpty || decide (c._client.source.ending ≠ .closed)) =
        c._client.connected := by
      rw [← h.linked, hlinked, Bool.or_eq_true, hstays]
      exact Or.inr (by decide)
    conv_lhs => rw [h.same]
    rw [session, session]
    congr 1
    exact hup.symm
  rw [ready, Link.poll]
  cases hticks : c._client.source.ticks with
  | nil => exact ⟨h, fun h' => by cases h'⟩
  | cons x ticks =>
      -- a byte is ready only where a packet is under way
      cases x with
      | item b =>
          refine ⟨h, fun _ hnil => ?_⟩
          have hlinked := linked_of_ticks h (by rw [hticks]; exact List.cons_ne_nil _ ticks)
          obtain ⟨-, hbox, -⟩ := h.coming hlinked
          rw [hticks, hnil, items_item] at hbox
          cases hbox
      | wait => exact ⟨hwait _ _ hticks rfl, fun h' => by cases h'⟩
      | silence => exact ⟨hwait _ _ hticks rfl, fun h' => by cases h'⟩

/-- A message has the length of its topic. -/
theorem two_le_body (p : Packet) (h : p.frame.header &&& 0xF0 = 48) :
    2 ≤ p.frame.body.length := by
  -- only a PUBLISH has a topic
  have hother : ∀ header : UInt8, p.frame.header = header → header &&& 0xF0 ≠ 48 →
      2 ≤ p.frame.body.length := fun header hp hne => absurd (hp ▸ h) hne
  cases p with
  | publish m =>
      change 2 ≤ (text m.topic ++ _).length
      rw [List.length_append, MqttPackets.length_text]
      omega
  | connect _ => exact hother 16 rfl (by decide)
  | connack _ _ => exact hother 32 rfl (by decide)
  | puback _ => exact hother 64 rfl (by decide)
  | subscribe _ _ _ => exact hother 130 rfl (by decide)
  | suback _ _ => exact hother 144 rfl (by decide)
  | unsubscribe _ _ => exact hother 162 rfl (by decide)
  | unsuback _ => exact hother 176 rfl (by decide)
  | pingreq => exact hother 192 rfl (by decide)
  | pingresp => exact hother 208 rfl (by decide)
  | disconnect => exact hother 224 rfl (by decide)

/-- Behind a packet that was read, the client refines the session without it. -/
theorem refines_having (h : Refines c s) (hlinked : s.linked = true) {p : Packet}
    {inbox : List Packet} (hbox : s.inbox = p :: inbox) (b : Block bufferSize.toNat)
    {ticks : List (Tick UInt8)} (hprompt : Prompt ticks) (hitems : items ticks = encodeAll inbox) :
    Refines (c.having b ticks (c.stream.map (· ++ payloadOf p.frame)))
      { s with inbox, stream := s.stream.map (· ++ payloadOf p.frame) } := by
  have hstays := (h.coming hlinked).2.2
  refine ⟨?_, h.accepts, h.sent, fun _ => ⟨hprompt, hitems, hstays⟩, fun q hq => ?_, h.outgoing⟩
  -- the server stays, so the connection stands whether or not there is more to come
  · have hlink : (!ticks.isEmpty || decide (c._client.source.ending ≠ .closed)) =
        c._client.connected := by
      rw [← h.linked, hlinked, hstays, Bool.or_eq_true]
      exact Or.inr (by decide)
    conv_lhs => rw [h.same]
    rw [session, session]
    congr 1
    exact hlink.symm
  · have hq' := h.expected q (by rw [hbox]; exact List.mem_cons_of_mem p hq)
    refine ⟨hq'.1, fun m hm hstream => hq'.2 m hm fun hnone => hstream ?_⟩
    rw [hnone, Option.map_none]

/-- The packet that is there is read, and stands in the buffer. -/
theorem refines_readPacket (h : Refines c s) (hlinked : s.linked = true)
    (hsize : 7 ≤ bufferSize.toNat) {p : Packet} {inbox : List Packet}
    (hbox : s.inbox = p :: inbox) :
    ∃ c', c.readPacket = .ok ((kept bufferSize c.stream p.frame.encode.length,
        (lengthBytes 4 p.frame.body.length).length), c') ∧
      Refines c' { s with inbox, stream := s.stream.map (· ++ payloadOf p.frame) } ∧
      Placed c'.buffer.1 0 (p.encode.take bufferSize.toNat) := by
  obtain ⟨hprompt, hitems, -⟩ := h.coming hlinked
  have hp := h.expected p (by rw [hbox]; exact List.mem_cons_self)
  rw [hbox, MqttPackets.encodeAll_cons] at hitems
  obtain ⟨b, ticks, hread, hprompt', hitems', hplaced⟩ :=
    readPacket_frame c p.frame hp.1.small hsize (two_le_body p) hprompt hitems
  exact ⟨_, hread, refines_having h hlinked hbox b hprompt' hitems', hplaced⟩

/-- A message that the session does not pass over has its payload in the buffer. -/
theorem payloadAt_of_kept {p : Packet} (hp : Expected bufferSize s.stream p)
    (hkept : ¬ s.ignores bufferSize.toNat p) (m : Publish) (hm : p = .publish m) :
    m.topic.length < 65536 ∧ Session.payloadAt m ≤ bufferSize.toNat := by
  subst hm
  refine ⟨hp.1.1, ?_⟩
  by_cases hnone : s.stream = none
  · -- without a stream the whole message is in the buffer
    have hroom : ¬ bufferSize.toNat < (Packet.publish m).encode.length :=
      fun hlt => hkept ⟨hnone, hlt⟩
    rw [length_publish] at hroom
    omega
  · exact hp.2 m rfl hnone

/-- A packet is read and handled, or passed over. -/
theorem refines_receive (h : Refines c s) (callback : Option Callback)
    (hsafe : ∀ f ∈ callback, SafeCallback bufferSize f) (t now : UInt32)
    (hsize : 7 ≤ bufferSize.toNat) (hup : c.Up) :
    Simulates ((c.receive callback t now).map (·.2))
      (s.receive bufferSize.toNat callback c.ready t now) := by
  obtain ⟨hpoll, hready⟩ := poll_spec h
  have hstart : c.receive callback t now = (if c.ready = true then do
      let r ← { c with _client := c._client.poll.2 }.readPacket
      if 0 < r.1.1 then
        let c ← handle callback r.2 r.1.1 r.1.2 t now
        return (true, c)
      else return r.2.connected
      else return (true, { c with _client := c._client.poll.2 })) := rfl
  rw [hstart, Session.receive]
  -- something is ready exactly if the session has a packet to take
  by_cases hr : c.ready = true
  · rw [if_pos hr, if_pos hr]
    cases hbox : s.inbox with
    | nil => exact absurd hbox (hready hr)
    | cons p inbox =>
        dsimp only
        obtain ⟨c', hread, hafter, hbuffer⟩ :=
          refines_readPacket hpoll (h.linked.trans hup.1) hsize hbox
        have hup' : c'.Up := hafter.up_iff.1 (h.up_iff.2 hup)
        -- the object forgets a packet that does not fit where there is no stream
        have hignores : s.ignores bufferSize.toNat p ↔
            c.stream = none ∧ bufferSize.toNat < p.frame.encode.length := by
          rw [Session.ignores, h.same]
          rfl
        rw [hread]
        change Simulates (Except.map (·.2)
            (if 0 < kept bufferSize c.stream p.frame.encode.length then do
          let c ← handle callback c' (kept bufferSize c.stream p.frame.encode.length)
            (lengthBytes 4 p.frame.body.length).length t now
          return (true, c)
        else return c'.connected)) _
        rw [kept]
        by_cases hig : s.ignores bufferSize.toNat p
        · rw [if_pos (hignores.1 hig), if_pos hig, if_neg (Nat.lt_irrefl 0), connected_of_up hup']
          exact ⟨c', rfl, hafter⟩
        · have hfits := payloadAt_of_kept
            (h.expected p (by rw [hbox]; exact List.mem_cons_self)) hig
          have hpos : 0 < min p.frame.encode.length bufferSize.toNat := by
            have : 0 < p.frame.encode.length := Nat.succ_pos _
            omega
          obtain ⟨c'', hhandle, h''⟩ := refines_handle hafter callback hsafe p
            (min p.frame.encode.length bufferSize.toNat) t now hsize hbuffer hfits rfl
          rw [if_neg fun h' => hig (hignores.2 h'), if_neg hig, if_pos hpos, hhandle]
          exact ⟨c'', rfl, h''⟩
  · rw [if_neg hr, if_neg hr]
    exact ⟨_, rfl, hpoll⟩

theorem refines_loop (h : Refines c s) (callback : Option Callback)
    (hsafe : ∀ f ∈ callback, SafeCallback bufferSize f) (t now : UInt32)
    (hsize : 7 ≤ bufferSize.toNat) :
    Simulates ((c.loop callback t now).map (·.2))
      (s.loop bufferSize.toNat callback c.ready t now) := by
  -- the object is up exactly if the session is
  by_cases hup : c.Up
  · have hidle : s.idle t ↔ c.idle t := by
      rw [h.same]
      rfl
    have hping : s.pingOutstanding = c.pingOutstanding := by rw [h.same, session]
    rw [Session.loop, if_pos (h.up_iff.2 hup), loop, connected_of_up hup]
    dsimp only
    rw [if_pos rfl]
    -- an idle connection is closed or pinged, on both sides
    by_cases hi : c.idle t
    · rw [if_pos hi, if_pos (hidle.2 hi), hping]
      by_cases hp : c.pingOutstanding = true
      · rw [if_pos hp, if_pos hp]
        refine ⟨_, rfl, h.stop.update _ _ rfl rfl rfl rfl rfl ?_⟩
        conv_lhs => rw [h.stop.same]
        rfl
      · obtain ⟨b, hstore⟩ := exists_store c.buffer 0 [192, 0] (by change 0 + 2 ≤ _; omega)
        have hput := (h.put .pingreq trivial).buffer b
        have hpinged : Refines
            { c with
              buffer := b, _client := (c._client.write [192, 0]).2, lastOutActivity := t
              lastInActivity := t, pingOutstanding := true }
            { s.put .pingreq with
              lastOutActivity := t, lastInActivity := t, pingOutstanding := true } := by
          refine hput.update _ _ rfl rfl rfl rfl rfl ?_
          conv_lhs => rw [hput.same]
          rfl
        have hup' := hpinged.up_iff.1 (by
          rw [Session.up]
          exact h.up_iff.2 hup)
        -- the ping is written, which makes nothing ready
        have hready : ready { c with
            buffer := b, _client := (c._client.write [192, 0]).2, lastOutActivity := t
            lastInActivity := t, pingOutstanding := true } = c.ready := by
          rw [ready, ready, Link.poll, Link.write_of_takes (h.takes (h.linked.trans hup.1)),
            Link.poll]
          cases c._client.source.ticks with
          | nil => rfl
          | cons x ticks => cases x <;> rfl
        rw [if_neg hp, if_neg hp, hstore, ← hready]
        exact refines_receive hpinged callback hsafe t now hsize hup'
    · rw [if_neg hi, if_neg fun h' => hi (hidle.1 h')]
      exact refines_receive h callback hsafe t now hsize hup
  · rw [Session.loop, if_neg fun h' => hup (h.up_iff.1 h'), loop, connected_of_not_up hup]
    exact ⟨_, rfl, h.checked⟩

theorem not_up {c : PubSubClient bufferSize} {s : Session} (h : Refines c s) (hup : ¬ c.Up) :
    ¬ s.up = true :=
  fun h' => hup (h.up_iff.1 h')

/-- The parts of a payload are written one behind the other. -/
theorem foldl_write (parts : List (List UInt8)) (c : PubSubClient bufferSize)
    (htakes : c._client.Takes) (data : List UInt8) (now : UInt32) :
    parts.foldl (fun c part => (c.write part now).2) (c.sentAll data now) =
      c.sentAll (data ++ parts.flatten) now := by
  induction parts generalizing data with
  | nil => rw [List.flatten_nil, List.append_nil, List.foldl_nil]
  | cons part parts ih =>
      have hstep : ((c.sentAll data now).write part now).2 = c.sentAll (data ++ part) now := by
        have htakes' : (c.sentAll data now)._client.Takes := htakes
        rw [write, Link.write_of_takes htakes', ← sentAll_sentAll c data part now now]
        rfl
      rw [List.foldl_cons, hstep, ih, List.flatten_cons, List.append_assoc]

/-- A call of the application for which there is room. Nothing checks that the topic of a
message fits whose payload does not go through the buffer, nor the length of one in parts. -/
def Proper (bufferSize : UInt16) : Event → Prop
  | .publish _ payload _ => payload.length < 2 ^ 31
  | .publish_P topic payload retained =>
    (Packet.publish ⟨false, retained, none, topic.1, payload⟩).Fits ∧
      3 + (lengthBytes 4 (payload.length + 2 + topic.1.length)).length + topic.1.length ≤
        bufferSize.toNat
  | .publishInParts topic parts _ =>
    parts.flatten.length + 2 + topic.1.length < 65536 ∧ 7 + topic.1.length ≤ bufferSize.toNat
  | .subscribe topic qos => Subscribable bufferSize topic qos
  | .unsubscribe _ => True
  | .loop _ => True
  | .disconnect => True
  | .lost => True

theorem refines_publish_P (h : Refines c s) (topic : CString) (payload : List UInt8)
    (retained : Bool) (now : UInt32)
    (hproper : Proper bufferSize (.publish_P topic payload retained)) :
    Simulates ((c.publish_P topic payload retained now).map (·.2))
      (s.publishDirectly topic payload retained now) := by
  by_cases hup : c.Up
  · have hlinked : s.linked = true := h.linked.trans hup.1
    obtain ⟨b, hpublish⟩ := publish_P_spec hup (h.takes hlinked) topic payload retained now
      hproper.1 hproper.2
    rw [Session.publishDirectly, if_pos (h.up_iff.2 hup), hpublish]
    exact ⟨_, rfl, h.sentAll hlinked _ hproper.1 now b⟩
  · rw [Session.publishDirectly, if_neg (not_up h hup), publish_P, connected_of_not_up hup]
    exact ⟨_, rfl, h.checked⟩

theorem refines_publishInParts (h : Refines c s) (topic : CString) (parts : List (List UInt8))
    (retained : Bool) (now : UInt32)
    (hproper : Proper bufferSize (.publishInParts topic parts retained)) :
    Simulates (c.publishInParts topic parts retained now)
      (s.publishDirectly topic parts.flatten retained now) := by
  obtain ⟨hlength, hroom⟩ := hproper
  by_cases hup : c.Up
  · have hlinked : s.linked = true := h.linked.trans hup.1
    have hfits : (Packet.publish ⟨false, retained, none, topic.1, parts.flatten⟩).Fits :=
      ⟨by dsimp only; omega, by dsimp only; omega⟩
    -- header and topic go out first, the parts one by one behind them
    obtain ⟨b, hbegin⟩ := beginPublish_spec hup (h.takes hlinked) topic parts.flatten.length
      retained now hlength hroom
    rw [Session.publishDirectly, if_pos (h.up_iff.2 hup), publishInParts, hbegin]
    refine ⟨_, rfl, ?_⟩
    have htakes : ({ c with buffer := b } : PubSubClient bufferSize)._client.Takes :=
      h.takes hlinked
    -- on the link the bytes add up to the whole packet
    have hwrites := foldl_write parts { c with buffer := b } htakes
      ((if retained then 48 ||| 1 else 48) ::
        (lengthBytes 4 (parts.flatten.length + 2 + topic.1.length) ++ text topic.1)) now
    rw [← encode_publish retained topic.1 parts.flatten] at hwrites
    have hsim := h.sentAll hlinked _ hfits now b
    change Refines (parts.foldl (fun c part => (c.write part now).2)
      ({ c with buffer := b }.sentAll ((if retained then 48 ||| 1 else 48) ::
        (lengthBytes 4 (parts.flatten.length + 2 + topic.1.length) ++ text topic.1)) now)) _
    rw [hwrites]
    exact hsim
  · rw [Session.publishDirectly, if_neg (not_up h hup), publishInParts, beginPublish,
      connected_of_not_up hup]
    exact ⟨_, rfl, h.checked⟩

/-- A call of the client is one of the session. -/
theorem refines_step (h : Refines c s) (callback : Option Callback)
    (hsafe : ∀ f ∈ callback, SafeCallback bufferSize f) (now : UInt32) (e : Event)
    (hproper : Proper bufferSize e) (hsize : 7 ≤ bufferSize.toNat) :
    Simulates (c.step callback now e) (s.step bufferSize.toNat callback c.ready now e) := by
  cases e with
  | publish topic payload retained => exact refines_publish h topic payload retained now hproper
  | publish_P topic payload retained =>
      exact refines_publish_P h topic payload retained now hproper
  | publishInParts topic parts retained =>
      exact refines_publishInParts h topic parts retained now hproper
  | subscribe topic qos => exact refines_subscribe h topic qos now hproper
  | unsubscribe topic => exact refines_unsubscribe h topic now
  | loop t => exact refines_loop h callback hsafe t now hsize
  | disconnect => exact refines_disconnect h now (by omega)
  | lost => exact ⟨_, rfl, h.stop⟩

end PubSubClient

end Mqtt

end ArduinoBeken
