import ArduinoBeken.Library.WebSocketFrames
import ArduinoBeken.Mqtt.WrittenPackets

/-!
# Messages of the WebSocket Client

A `WebSocketClient` composes one message at a time in a buffer of 128 bytes, and sends it in
one frame when it is whole. A write that does not fit is cut, but to what is left of the eight
bytes of `iTxSize` instead of what is left of the buffer: it keeps too little, and behind the
eighth byte the difference wraps and the copy runs past the buffer.

`ping`, and the answer to a ping in `parseMessage`, go through the same buffer, whether or not
the sketch is in the middle of a message.

## Main definitions

* `HttpState`, `WebSocketClient`: The client, as far as it sends.
* `beginMessage`, `write`, `endMessage`, `ping`, `pong`: Its calls.
* `Call`, `run`: Sequences of calls.
-/

namespace ArduinoBeken

namespace Websocket

open CheckedBytes (Block Fault load store)
open Mqtt (Link)
open WebSocketFrames (Key mask)

/-- `tHttpState`. -/
inductive HttpState where
  | idle
  | requestStarted
  | requestSent
  | readingStatusCode
  | statusCodeRead
  | readingContentLength
  | skipToEndOfHeader
  | lineStartingCRFound
  | readingBody
  | readingChunkLength
  | readingBodyChunk
deriving DecidableEq, Repr

/-- Where the state stands in the enumeration. -/
def HttpState.rank : HttpState → Nat
  | .idle => 0
  | .requestStarted => 1
  | .requestSent => 2
  | .readingStatusCode => 3
  | .statusCodeRead => 4
  | .readingContentLength => 5
  | .skipToEndOfHeader => 6
  | .lineStartingCRFound => 7
  | .readingBody => 8
  | .readingChunkLength => 9
  | .readingBodyChunk => 10

/-- The opcode of a ping. -/
def TYPE_PING : Int := 0x9

/-- The opcode of its answer. -/
def TYPE_PONG : Int := 0xa

/-- The bytes of the buffer. -/
def WS_TX_BUFFER_SIZE : Nat := 128

/-- A client, with what the connection was sent. -/
structure WebSocketClient where
  iClient : Link
  iState : HttpState
  iTxStarted : Bool
  iTxMessageType : UInt8
  iTxBuffer : Block WS_TX_BUFFER_SIZE
  iTxSize : UInt64

namespace WebSocketClient

/-- The empty line that ends a request's head, with the state behind it. -/
def finishHeaders (c : WebSocketClient) : WebSocketClient :=
  { c with iClient := (c.iClient.write [13, 10]).2, iState := .requestSent }

/-- `HttpClient::write`. -/
def httpWrite (c : WebSocketClient) (aBuffer : List UInt8) : Nat × WebSocketClient :=
  let c := if c.iState.rank < HttpState.requestSent.rank then c.finishHeaders else c
  let r := c.iClient.write aBuffer
  (r.1, { c with iClient := r.2 })

/-- Whether the message was begun. -/
def beginMessage (c : WebSocketClient) (aType : Int) : Bool × WebSocketClient :=
  if c.iTxStarted then (false, c)
  else (true, { c with
    iTxStarted := true, iTxMessageType := UInt8.ofNat (aType % 16).toNat, iTxSize := 0 })

/-- How much of the data is copied. A `size_t` has 32 bits. -/
def copied (iTxSize : UInt64) (aSize : Nat) : Nat :=
  if WS_TX_BUFFER_SIZE < iTxSize.toNat + aSize then (8 - iTxSize).toUInt32.toNat else aSize

/-- `write(const uint8_t *, size_t)`, and for one byte `write(uint8_t)`. -/
def write (c : WebSocketClient) (aBuffer : List UInt8) :
    Except Fault (Nat × WebSocketClient) :=
  if c.iState.rank < HttpState.readingBody.rank then .ok (c.httpWrite aBuffer)
  else if !c.iTxStarted then .ok (0, c)
  else do
    let aSize := copied c.iTxSize aBuffer.length
    let data ← load aBuffer 0 aSize
    let iTxBuffer ← store c.iTxBuffer c.iTxSize.toNat data.1
    return (aSize, { c with iTxBuffer, iTxSize := c.iTxSize + UInt64.ofNat aSize })

/-- The bytes of the length, each of which is written by itself. -/
def lengthField (iTxSize : UInt64) : List UInt8 :=
  if iTxSize < 126 then [0x80 ||| iTxSize.toUInt8]
  else if iTxSize < 0xffff then [0x80 ||| 126, (iTxSize >>> 8).toUInt8, iTxSize.toUInt8]
  else
    (0x80 ||| 127) ::
      [56, 48, 40, 32, 24, 16, 8, 0].map fun shift : UInt64 => (iTxSize >>> shift).toUInt8

/-- Writes of one byte each. -/
def httpWriteEach (c : WebSocketClient) (bytes : List UInt8) : WebSocketClient :=
  bytes.foldl (fun c b => (c.httpWrite [b]).2) c

/-- `endMessage`, with the key that is drawn. -/
def endMessage (c : WebSocketClient) (maskKey : Key) :
    Except Fault (Bool × WebSocketClient) :=
  if !c.iTxStarted then .ok (false, c)
  else do
    let c := c.httpWriteEach ((0x80 ||| c.iTxMessageType) :: lengthField c.iTxSize)
    let c := (c.httpWrite (List.ofFn maskKey)).2
    let data ← load c.iTxBuffer.1 0 c.iTxSize.toNat
    let iTxBuffer ← store c.iTxBuffer 0 (mask maskKey 0 data.1)
    let txSize := c.iTxSize.toNat
    let data ← load iTxBuffer.1 0 txSize
    let r := { c with iTxBuffer, iTxStarted := false, iTxSize := 0 }.httpWrite data.1
    return (decide (r.1 = txSize), r.2)

/-- `ping`, with the data and the key that are drawn. -/
def ping (c : WebSocketClient) (pingData : Block 16) (maskKey : Key) :
    Except Fault (Bool × WebSocketClient) := do
  let c := (c.beginMessage TYPE_PING).2
  let r ← c.write pingData.1
  r.2.endMessage maskKey

/-- What `parseMessage` does about a ping, whose payload is written byte by byte. -/
def pong (c : WebSocketClient) (payload : List UInt8) (maskKey : Key) :
    Except Fault (Bool × WebSocketClient) := do
  let c := (c.beginMessage TYPE_PONG).2
  let c ← payload.foldlM (fun c b => Prod.snd <$> c.write [b]) c
  c.endMessage maskKey

/-- What the sketch does, and that it comes upon a ping of the server. -/
inductive Call where
  | beginMessage (aType : Int)
  | write (aBuffer : List UInt8)
  | endMessage (maskKey : Key)
  | ping (pingData : Block 16) (maskKey : Key)
  | pong (payload : List UInt8) (maskKey : Key)

/-- One call. -/
def step (c : WebSocketClient) : Call → Except Fault WebSocketClient
  | .beginMessage aType => .ok (c.beginMessage aType).2
  | .write aBuffer => Prod.snd <$> c.write aBuffer
  | .endMessage maskKey => Prod.snd <$> c.endMessage maskKey
  | .ping pingData maskKey => Prod.snd <$> c.ping pingData maskKey
  | .pong payload maskKey => Prod.snd <$> c.pong payload maskKey

/-- A run of calls, which stops at the first that runs past the buffer. -/
def run (c : WebSocketClient) (calls : List Call) : Except Fault WebSocketClient :=
  calls.foldlM step c

end WebSocketClient

end Websocket

end ArduinoBeken
