import ArduinoBeken.Library.CheckedBytes
import ArduinoBeken.Library.TimedReads
import Mathlib

/-!
# The MQTT Client

The class `PubSubClient`, which speaks MQTT over the connection of a `Client`. It has one
buffer, in which packets are put together before they are written and into which they are read,
and every access to it is checked. The header of a packet goes into the five bytes in front of
its body, at their end, so that its length need not be known before.

The broker's bytes come as a stream with pauses, and a pause may be longer than the patience of
a read. A write may be cut short. The times are those at which the code asks for them. What the
callback does is a list of calls of the client.

## Main definitions

* `Link`: The connection.
* `PubSubClient`: The client.
* `writeString`, `buildHeader`, `writePacket`: Packets are put together.
* `connect`, `publish`, `publish_P`, `beginPublish`, `subscribe`, `unsubscribe`, `disconnect`:
  Packets are written.
* `readPacket`: A packet is read.
* `loop`: A packet is handled.
-/

namespace ArduinoBeken

namespace Mqtt

open Arrivals
open CheckedBytes (Block Fault byte load store)

/-! ### The connection -/

/-- The connection of `_client`: what the broker sends, what it was sent, and how much the next
writes take. -/
structure Link where
  source : Source UInt8
  sent : List UInt8 := []
  accepts : List Nat := []

namespace Link

/-- `Client::connected`. -/
def connected (l : Link) : Bool :=
  l.source.connected

/-- How much of the data was written. -/
def write (l : Link) (data : List UInt8) : Nat × Link :=
  if l.connected then
    match l.accepts with
    | [] => (data.length, { l with sent := l.sent ++ data })
    | k :: accepts => (min k data.length, { l with sent := l.sent ++ data.take k, accepts })
  else (0, l)

/-- One write for every byte. -/
def writeEach (l : Link) : List UInt8 → Nat × Link
  | [] => (0, l)
  | b :: data =>
    let r := l.write [b]
    let rest := r.2.writeEach data
    (r.1 + rest.1, rest.2)

/-- `Client::stop`: nothing more comes. -/
def stop (l : Link) : Link :=
  { l with source := ⟨[], .closed⟩ }

/-- Whether there is a byte at the moment, which is over if there is none. -/
def poll (l : Link) : Bool × Link :=
  match l.source.ticks with
  | .item _ :: _ => (true, l)
  | .wait :: ticks => (false, { l with source := { l.source with ticks } })
  | .silence :: ticks => (false, { l with source := { l.source with ticks } })
  | [] => (false, l)

/-- Whether there comes a byte before the patience is at its end. -/
def await (ending : Ending) : List (Tick UInt8) → Bool × Source UInt8
  | .item a :: ticks => (true, ⟨.item a :: ticks, ending⟩)
  | .wait :: ticks => await ending ticks
  | .silence :: ticks => (false, ⟨ticks, ending⟩)
  | [] => (false, ⟨[], ending⟩)

end Link

/-! ### The client -/

/-- A text that ends with its first zero. -/
abbrev CString := {t : List UInt8 // 0 ∉ t}

/-- What the callback is given. -/
structure Message where
  topic : List UInt8
  payload : List UInt8
deriving DecidableEq, Repr

/-- The state behind a broker that did not answer. -/
def MQTT_CONNECTION_TIMEOUT : Int := -4
/-- The state behind a connection that broke. -/
def MQTT_CONNECTION_LOST : Int := -3
/-- The state behind a connection that was not made. -/
def MQTT_CONNECT_FAILED : Int := -2
/-- The state behind `disconnect`. -/
def MQTT_DISCONNECTED : Int := -1
/-- The state of a session. -/
def MQTT_CONNECTED : Int := 0

/-- The room that is left in front of a body for its header. -/
def MQTT_MAX_HEADER_SIZE : Nat := 5

/-- The client, with a buffer of `bufferSize` bytes. The calls of the callback are kept, and
what was written to the stream, if there is one. -/
structure PubSubClient (bufferSize : UInt16) where
  buffer : Block bufferSize.toNat
  _client : Link
  _state : Int := MQTT_DISCONNECTED
  nextMsgId : UInt16 := 0
  lastOutActivity : UInt32 := 0
  lastInActivity : UInt32 := 0
  pingOutstanding : Bool := false
  keepAlive : UInt16 := 15
  stream : Option (List UInt8) := none
  calls : List Message := []

/-- A call of the client by the callback. -/
inductive Request where
  | publish (topic : CString) (payload : List UInt8) (retained : Bool)
  | subscribe (topic : CString) (qos : UInt8)
  | unsubscribe (topic : CString)
  | disconnect
deriving DecidableEq

/-- What the callback calls, by the message it is handed. -/
abbrev Callback := Message → List Request

/-- The arguments of `connect`. -/
structure ConnectArgs where
  id : CString
  user : Option CString
  pass : Option CString
  willTopic : Option CString
  willQos : UInt8
  willRetain : Bool
  willMessage : CString
  cleanSession : Bool

/-- The bits that say what follows. -/
def ConnectArgs.flags (a : ConnectArgs) : UInt8 :=
  let willRetain : UInt8 := if a.willRetain then 32 else 0
  let v : UInt8 := if a.willTopic.isSome then (4 : UInt8) ||| a.willQos <<< 3 ||| willRetain else 0
  let v := if a.cleanSession then v ||| 2 else v
  if a.user.isSome then
    let v := v ||| 128
    if a.pass.isSome then v ||| 64 else v
  else v

/-- The texts of a connection, in their order. -/
def ConnectArgs.strings (a : ConnectArgs) : List CString :=
  a.id :: ((match a.willTopic with
    | some willTopic => [willTopic, a.willMessage]
    | none => []) ++
    match a.user, a.pass with
    | some user, some pass => [user, pass]
    | some user, none => [user]
    | none, _ => [])

variable {bufferSize : UInt16}

namespace PubSubClient

/-- The higher and the lower byte of 16 bits. -/
def bytes16 (n : Nat) : List UInt8 :=
  [UInt8.ofNat (n / 256), UInt8.ofNat (n % 256)]

/-- The length of a text, up to a limit. -/
def strnlen (s : CString) (maxlen : Nat) : Nat :=
  min s.1.length maxlen

/-- `connected`, which also finds out that the connection has broken. -/
def connected (c : PubSubClient bufferSize) : Bool × PubSubClient bufferSize :=
  if c._client.connected then (c._state = MQTT_CONNECTED, c)
  else if c._state = MQTT_CONNECTED then
    (false, { c with _state := MQTT_CONNECTION_LOST, _client := c._client.stop })
  else (false, c)

/-! ### Packets are written -/

/-- The buffer with the text and its length from a position on. -/
def writeString (string : CString) (buf : Block bufferSize.toNat) (pos : Nat) :
    Except Fault (Block bufferSize.toNat) := do
  let buf ← store buf (pos + 2) string.1
  store buf pos (bytes16 (string.1.length % 65536))

/-- The bytes of a length. -/
def lengthDigits : Nat → Nat → List UInt8
  | 0, _ => []
  | k + 1, len =>
    let digit := UInt8.ofNat (len % 128)
    let len := len / 128
    if 0 < len then (digit ||| 0x80) :: lengthDigits k len else [digit]

/-- The header goes to the end of the bytes in front of the body. -/
def buildHeader (header : UInt8) (buf : Block bufferSize.toNat) (length : Nat) :
    Except Fault (Nat × Block bufferSize.toNat) := do
  let lenBuf := lengthDigits 3 (length % 65536)
  let buf ← store buf (4 - lenBuf.length) [header]
  let buf ← store buf (MQTT_MAX_HEADER_SIZE - lenBuf.length) lenBuf
  return (lenBuf.length + 1, buf)

/-- `write(header, buf, length)`, at a time. -/
def writePacket (c : PubSubClient bufferSize) (header : UInt8) (length : Nat) (now : UInt32) :
    Except Fault (Bool × PubSubClient bufferSize) := do
  let (hlen, buffer) ← buildHeader header c.buffer length
  let data ← load buffer.1 (MQTT_MAX_HEADER_SIZE - hlen) (length + hlen)
  let (rc, _client) := c._client.write data.1
  return (rc % 65536 = hlen + length, { c with buffer, _client, lastOutActivity := now })

/-- `publish`. The length is compared in 32 bits. -/
def publish (c : PubSubClient bufferSize) (topic : CString) (payload : List UInt8)
    (retained : Bool) (now : UInt32) : Except Fault (Bool × PubSubClient bufferSize) :=
  let (up, c) := c.connected
  if up then
    -- the sum is taken in 32 bits, `strnlen` stops at the buffer's size
    if bufferSize.toNat <
        (MQTT_MAX_HEADER_SIZE + 2 + strnlen topic bufferSize.toNat + payload.length) % 2 ^ 32 then
      .ok (false, c)
    else do
      let buffer ← writeString topic c.buffer MQTT_MAX_HEADER_SIZE
      let buffer ← store buffer (MQTT_MAX_HEADER_SIZE + 2 + topic.1.length) payload
      let header : UInt8 := if retained then 48 ||| 1 else 48
      writePacket { c with buffer } header (2 + topic.1.length + payload.length) now
  else .ok (false, c)

/-- `publish_P`, whose payload does not go through the buffer. -/
def publish_P (c : PubSubClient bufferSize) (topic : CString) (payload : List UInt8)
    (retained : Bool) (now : UInt32) : Except Fault (Bool × PubSubClient bufferSize) :=
  let (up, c) := c.connected
  if up then do
    -- `tlen` is cut at the buffer's size, while the topic is copied whole
    let tlen := strnlen topic bufferSize.toNat
    let header : UInt8 := if retained then 48 ||| 1 else 48
    let digits := lengthDigits 5 ((payload.length + 2 + tlen) % 2 ^ 32)
    let buffer ← store c.buffer 0 [header]
    let buffer ← store buffer 1 digits
    let buffer ← writeString topic buffer (1 + digits.length)
    let data ← load buffer.1 0 (1 + digits.length + 2 + topic.1.length)
    let (rc, _client) := c._client.write data.1
    let (rc', _client) := _client.writeEach payload
    return ((rc + rc') % 2 ^ 32 = (1 + digits.length + 2 + tlen + payload.length) % 2 ^ 32,
      { c with buffer, _client, lastOutActivity := now })
  else .ok (false, c)

/-- `beginPublish`, behind which the payload is written. -/
def beginPublish (c : PubSubClient bufferSize) (topic : CString) (plength : Nat) (retained : Bool)
    (now : UInt32) : Except Fault (Bool × PubSubClient bufferSize) :=
  -- the topic is copied without a look at its length
  let (up, c) := c.connected
  if up then do
    let buffer ← writeString topic c.buffer MQTT_MAX_HEADER_SIZE
    let header : UInt8 := if retained then 48 ||| 1 else 48
    let length := 2 + topic.1.length
    let (hlen, buffer) ← buildHeader header buffer (plength + length)
    let data ← load buffer.1 (MQTT_MAX_HEADER_SIZE - hlen) (length + hlen)
    let (rc, _client) := c._client.write data.1
    return (rc % 65536 = length + hlen, { c with buffer, _client, lastOutActivity := now })
  else .ok (false, c)

/-- `write(buffer, size)`. -/
def write (c : PubSubClient bufferSize) (data : List UInt8) (now : UInt32) :
    Nat × PubSubClient bufferSize :=
  let (rc, _client) := c._client.write data
  (rc, { c with _client, lastOutActivity := now })

/-- The next message id, which is not zero. -/
def nextId (id : UInt16) : UInt16 :=
  if id + 1 = 0 then 1 else id + 1

/-- `subscribe`, with the next id. -/
def subscribe (c : PubSubClient bufferSize) (topic : CString) (qos : UInt8) (now : UInt32) :
    Except Fault (Bool × PubSubClient bufferSize) :=
  if 1 < qos then .ok (false, c)
  else if bufferSize.toNat < 9 + strnlen topic bufferSize.toNat then .ok (false, c)
  else
    let (up, c) := c.connected
    if up then do
      -- the identifier is counted on before the packet is written
      let nextMsgId := nextId c.nextMsgId
      let buffer ← store c.buffer MQTT_MAX_HEADER_SIZE (bytes16 nextMsgId.toNat)
      let buffer ← writeString topic buffer (MQTT_MAX_HEADER_SIZE + 2)
      let buffer ← store buffer (MQTT_MAX_HEADER_SIZE + 4 + topic.1.length) [qos]
      writePacket { c with buffer, nextMsgId } (128 ||| 2) (5 + topic.1.length) now
    else .ok (false, c)

/-- `unsubscribe`, with the next id. -/
def unsubscribe (c : PubSubClient bufferSize) (topic : CString) (now : UInt32) :
    Except Fault (Bool × PubSubClient bufferSize) :=
  if bufferSize.toNat < 9 + strnlen topic bufferSize.toNat then .ok (false, c)
  else
    let (up, c) := c.connected
    if up then do
      let nextMsgId := nextId c.nextMsgId
      let buffer ← store c.buffer MQTT_MAX_HEADER_SIZE (bytes16 nextMsgId.toNat)
      let buffer ← writeString topic buffer (MQTT_MAX_HEADER_SIZE + 2)
      writePacket { c with buffer, nextMsgId } (160 ||| 2) (4 + topic.1.length) now
    else .ok (false, c)

/-- `disconnect`. The packet goes out if the connection stands, and the state changes in any
case. -/
def disconnect (c : PubSubClient bufferSize) (now : UInt32) :
    Except Fault (PubSubClient bufferSize) := do
  let buffer ← store c.buffer 0 [224, 0]
  let (_, _client) := c._client.write [224, 0]
  return { c with
    buffer, _client := _client.stop, _state := MQTT_DISCONNECTED
    lastInActivity := now, lastOutActivity := now }

/-! ### Packets are read -/

/-- `readByte`, which waits as long as the socket's timeout. -/
def readByte (c : PubSubClient bufferSize) : Option UInt8 × PubSubClient bufferSize :=
  let (b, source) := timedRead c._client.source
  (b, { c with _client := { c._client with source } })

/-- `readByte(result, index)`: whether a byte was read into the buffer. -/
def readInto (c : PubSubClient bufferSize) (index : Nat) :
    Except Fault (Bool × PubSubClient bufferSize) :=
  match c.readByte with
  | (none, c) => .ok (false, c)
  | (some b, c) => do
    let buffer ← store c.buffer index [b]
    return (true, { c with buffer })

/-- The connection is killed. -/
def kill (c : PubSubClient bufferSize) : PubSubClient bufferSize :=
  { c with _state := MQTT_DISCONNECTED, _client := c._client.stop }

/-- The bytes of the length, of which there may be so many more. Where they end, and the
length. -/
def lengthLoop : Nat → PubSubClient bufferSize → Nat → Nat →
    Except Fault (Option (Nat × Nat) × PubSubClient bufferSize)
  | 0, c, _, _ => .ok (none, c.kill)
  | r + 1, c, multiplier, length =>
    match c.readByte with
    | (none, c) => .ok (none, c)
    | (some digit, c) => do
      let buffer ← store c.buffer (4 - r) [digit]
      let length := length + digit.toNat % 128 * multiplier
      if 128 ≤ digit then lengthLoop r { c with buffer } (multiplier * 128) length
      else return (some (5 - r, length), { c with buffer })

/-- A byte is written to the stream, if there is one. -/
def toStream (c : PubSubClient bufferSize) (digit : UInt8) : PubSubClient bufferSize :=
  { c with stream := c.stream.map (· ++ [digit]) }

/-- So many bytes of the body. Those that the buffer has no room for are left out, and those
behind the topic and the id go to the stream. -/
def bodyLoop (isPublish : Bool) (lengthLength skip : Nat) :
    Nat → PubSubClient bufferSize → Nat → Nat →
      Except Fault (Option (Nat × Nat) × PubSubClient bufferSize)
  | 0, c, len, idx => .ok (some (len, idx), c)
  | k + 1, c, len, idx =>
    match c.readByte with
    | (none, c) => .ok (none, c)
    | (some digit, c) =>
      let c := if isPublish ∧ skip < idx - lengthLength - 2 then c.toStream digit else c
      if len < bufferSize.toNat then do
        let buffer ← store c.buffer len [digit]
        bodyLoop isPublish lengthLength skip k { c with buffer } (len + 1) (idx + 1)
      else bodyLoop isPublish lengthLength skip k c len (idx + 1)

/-- `readPacket` behind the fixed header. A packet that is ignored has no length. -/
def readBody (isPublish : Bool) (lengthLength skip count len : Nat)
    (c : PubSubClient bufferSize) : Except Fault (Nat × PubSubClient bufferSize) := do
  match ← bodyLoop isPublish lengthLength skip count c len len with
  | (none, c) => return (0, c)
  | (some (len, idx), c) =>
    return (if c.stream = none ∧ bufferSize.toNat < idx then 0 else len, c)

/-- `readPacket` behind the length, of which `len` is the end. The length of a topic says how
far the payload is. -/
def readRest (first : UInt8) (len length : Nat) (c : PubSubClient bufferSize) :
    Except Fault ((Nat × Nat) × PubSubClient bufferSize) := do
  let lengthLength := len - 1
  -- a PUBLISH has its topic's length read ahead, for the stream
  if first &&& 0xF0 = 48 then
    match ← c.readInto len with
    | (false, c) => return ((0, 0), c)
    | (true, c) =>
      match ← c.readInto (len + 1) with
      | (false, c) => return ((0, 0), c)
      | (true, c) =>
        let hi ← byte c.buffer.1 (lengthLength + 1)
        let lo ← byte c.buffer.1 (lengthLength + 2)
        let skip := hi.toNat * 256 + lo.toNat
        -- the identifier of a QoS message does not go to the stream
        let skip := if first &&& 2 = 0 then skip else (skip + 2) % 65536
        let (len, c) ← readBody true lengthLength skip (length - 2) (len + 2) c
        return ((len, lengthLength), c)
  else
    let (len, c) ← readBody false lengthLength 0 length len c
    return ((len, lengthLength), c)

/-- `readPacket`: how many bytes there are in the buffer, and how many of them are the length. -/
def readPacket (c : PubSubClient bufferSize) :
    Except Fault ((Nat × Nat) × PubSubClient bufferSize) := do
  match ← c.readInto 0 with
  | (false, c) => return ((0, 0), c)
  | (true, c) =>
    let first ← byte c.buffer.1 0
    match ← lengthLoop 4 c 1 0 with
    | (none, c) => return ((0, 0), c)
    | (some (len, length), c) => readRest first len length c

/-! ### Packets are handled -/

/-- A call of the client by the callback. -/
def request (c : PubSubClient bufferSize) (now : UInt32) :
    Request → Except Fault (PubSubClient bufferSize)
  | .publish topic payload retained => (c.publish topic payload retained now).map (·.2)
  | .subscribe topic qos => (c.subscribe topic qos now).map (·.2)
  | .unsubscribe topic => (c.unsubscribe topic now).map (·.2)
  | .disconnect => c.disconnect now

/-- The callback is called. -/
def call (callback : Callback) (c : PubSubClient bufferSize) (message : Message) (now : UInt32) :
    Except Fault (PubSubClient bufferSize) :=
  (callback message).foldlM (fun c r => c.request now r) { c with calls := c.calls ++ [message] }

/-- The buffer with the bytes moved from one position to another. -/
def memmove (buf : Block bufferSize.toNat) (dest src count : Nat) :
    Except Fault (Block bufferSize.toNat) := do
  let data ← load buf.1 src count
  store buf dest data.1

/-- A length as the callback gets it, of 32 bits. -/
def unsigned (n : Int) : Nat :=
  (n % 2 ^ 32).toNat

/-- A message of `len` bytes in the buffer. -/
def handlePublish (callback : Callback) (c : PubSubClient bufferSize) (len llen : Nat)
    (t now : UInt32) : Except Fault (PubSubClient bufferSize) := do
  let hi ← byte c.buffer.1 (llen + 1)
  let lo ← byte c.buffer.1 (llen + 2)
  let tl := hi.toNat * 256 + lo.toNat
  let buffer ← memmove c.buffer (llen + 2) (llen + 3) tl
  let buffer ← store buffer (llen + 2 + tl) [0]
  let first ← byte buffer.1 0
  let topic := (buffer.1.drop (llen + 2)).takeWhile (· ≠ 0)
  if first &&& 6 = 2 then
    let hi ← byte buffer.1 (llen + 3 + tl)
    let lo ← byte buffer.1 (llen + 3 + tl + 1)
    let payload ← load buffer.1 (llen + 3 + tl + 2) (unsigned (len - llen - 3 - tl - 2))
    let c ← call callback { c with buffer } ⟨topic, payload.1⟩ now
    -- the id was kept, as the callback may have used the buffer
    let buffer ← store c.buffer 0 [64, 2, hi, lo]
    let (_, _client) := c._client.write [64, 2, hi, lo]
    return { c with buffer, _client, lastOutActivity := t }
  else
    let payload ← load buffer.1 (llen + 3 + tl) (unsigned (len - llen - 3 - tl))
    call callback { c with buffer } ⟨topic, payload.1⟩ now

/-- A packet of `len` bytes in the buffer. -/
def handle (callback : Option Callback) (c : PubSubClient bufferSize) (len llen : Nat)
    (t now : UInt32) : Except Fault (PubSubClient bufferSize) := do
  let first ← byte c.buffer.1 0
  if first &&& 0xF0 = 48 then
    match callback with
    | some callback => handlePublish callback { c with lastInActivity := t } len llen t now
    | none => return { c with lastInActivity := t }
  else if first &&& 0xF0 = 192 then
    let buffer ← store c.buffer 0 [208, 0]
    let (_, _client) := c._client.write [208, 0]
    return { c with buffer, _client, lastInActivity := t }
  else if first &&& 0xF0 = 208 then
    return { c with lastInActivity := t, pingOutstanding := false }
  else return { c with lastInActivity := t }

/-- The time for which nothing has to come or go. -/
def patience (c : PubSubClient bufferSize) : UInt32 :=
  UInt32.ofNat c.keepAlive.toNat * 1000

/-- A ping is due. -/
def idle (c : PubSubClient bufferSize) (t : UInt32) : Prop :=
  c.patience < t - c.lastInActivity ∨ c.patience < t - c.lastOutActivity

instance (c : PubSubClient bufferSize) (t : UInt32) : Decidable (c.idle t) :=
  inferInstanceAs (Decidable (_ ∨ _))

/-- `loop` behind its pings. -/
def receive (callback : Option Callback) (c : PubSubClient bufferSize) (t now : UInt32) :
    Except Fault (Bool × PubSubClient bufferSize) := do
  let (available, _client) := c._client.poll
  let c := { c with _client }
  if available then
    let ((len, llen), c) ← c.readPacket
    if 0 < len then
      let c ← handle callback c len llen t now
      return (true, c)
    else
      let (up, c) := c.connected
      return (up, c)
  else return (true, c)

/-- `loop`, at a time, with a later one for the calls of the callback. -/
def loop (callback : Option Callback) (c : PubSubClient bufferSize) (t now : UInt32) :
    Except Fault (Bool × PubSubClient bufferSize) :=
  let (up, c) := c.connected
  if up then
    if c.idle t then
      -- the second idle period without an answer ends the connection
      if c.pingOutstanding then
        .ok (false, { c with _state := MQTT_CONNECTION_TIMEOUT, _client := c._client.stop })
      else do
        let buffer ← store c.buffer 0 [192, 0]
        let (_, _client) := c._client.write [192, 0]
        receive callback { c with
          buffer, _client, lastOutActivity := t, lastInActivity := t, pingOutstanding := true }
          t now
    else receive callback c t now
  else .ok (false, c)

/-! ### The session begins -/

/-- Texts one behind the other, as long as there is room. -/
def writeStrings : List CString → Block bufferSize.toNat → Nat →
    Except Fault (Option Nat × Block bufferSize.toNat)
  | [], buf, length => .ok (some length, buf)
  | s :: ss, buf, length =>
    if bufferSize.toNat < length + 2 + strnlen s bufferSize.toNat then .ok (none, buf)
    else do
      let buf ← writeString s buf length
      writeStrings ss buf (length + 2 + s.1.length)

/-- `connect` behind the packet that it writes. -/
def acknowledged (c : PubSubClient bufferSize) (now : UInt32) :
    Except Fault (Bool × PubSubClient bufferSize) :=
  -- waits for the first byte, or for the timeout
  match Link.await c._client.source.ending c._client.source.ticks with
  | (false, source) =>
    .ok (false, { c with
      _state := MQTT_CONNECTION_TIMEOUT, _client := { c._client with source }.stop })
  | (true, source) => do
    let ((len, _), c) ← { c with _client := { c._client with source } }.readPacket
    if len = 4 then
      let code ← byte c.buffer.1 3
      if code = 0 then
        return (true, { c with
          lastInActivity := now, pingOutstanding := false, _state := MQTT_CONNECTED })
      else return (false, { c with _state := code.toNat, _client := c._client.stop })
    else return (false, { c with _client := c._client.stop })

/-- `connect` on a connection. -/
def greet (c : PubSubClient bufferSize) (a : ConnectArgs) (t now : UInt32) :
    Except Fault (Bool × PubSubClient bufferSize) := do
  let c := { c with nextMsgId := 1 }
  let buffer ← store c.buffer MQTT_MAX_HEADER_SIZE
    ([0, 4, 77, 81, 84, 84, 4] ++ a.flags :: bytes16 c.keepAlive.toNat)
  match ← writeStrings a.strings buffer (MQTT_MAX_HEADER_SIZE + 10) with
  | (none, buffer) => return (false, { c with buffer, _client := c._client.stop })
  | (some length, buffer) =>
    let (_, c) ← writePacket { c with buffer } 16 (length - MQTT_MAX_HEADER_SIZE) t
    acknowledged { c with lastInActivity := t, lastOutActivity := t } now

/-- `connect`, with the connection that `_client` comes to, if it comes to one. -/
def connect (c : PubSubClient bufferSize) (a : ConnectArgs) (dial : Option Link)
    (t now : UInt32) : Except Fault (Bool × PubSubClient bufferSize) :=
  let (up, c) := c.connected
  if up then .ok (true, c)
  else if c._client.connected then c.greet a t now
  else
    match dial with
    | some link => { c with _client := link }.greet a t now
    | none => .ok (false, { c with _state := MQTT_CONNECT_FAILED })

end PubSubClient

end Mqtt

end ArduinoBeken
