import ArduinoBeken.Library.Run

/-!
# A UDP Object

`WiFiUDP` with its transmit buffer, its receive buffer and the destination
fields, which the two sides share. A buffer that is not allocated is `none`, and
the transmit buffer is what has been written to it so far.

The world has the datagrams that wait at the socket, and as history what the
sketch has done: the packet that `beginPacket` opened, with what was written to
it and what was handed to the stack since, and how many of the bytes at the front of
the transmit buffer belong to a packet that was ended. The code never reads
history.

`write(buffer, size)` is as many single writes (`writeAll`).

## Main definitions

* `WiFiUDP`, `Datagram`: The object, and what comes in and goes out.
* `WiFiUDP.parsePacket`, `WiFiUDP.readInto`, `WiFiUDP.flush` and so on: The
  functions on the object.
* `Packet`, `World`: The history.
* `Event`, `turn`, `step`: The calls, what they return, and what arrives.
-/

namespace ArduinoBeken

namespace WiFi.Udp

open EventRun (run)

/-- The bytes of each buffer. -/
def kUdpBufferSize : Nat := 1460

/-- An address and a port. -/
structure Endpoint where
  ip : Nat
  port : Nat
deriving DecidableEq, Repr

/-- A datagram with the other end of its way. -/
structure Datagram where
  peer : Endpoint
  bytes : List UInt8
deriving DecidableEq, Repr

/-- The members of the object, with its buffers as lists. -/
structure WiFiUDP where
  /-- `_udp_server` is a socket. -/
  udp_server : Bool := false
  remote : Endpoint := ⟨0, 0⟩
  tx_buffer : Option (List UInt8) := none
  rx_buffer : Option (List UInt8) := none
  rx_len : Nat := 0
  rx_pos : Nat := 0
deriving DecidableEq, Repr

/-- What a call returns, and what it copies to the caller. -/
structure Outcome where
  ret : Int
  copied : List UInt8 := []
deriving DecidableEq, Repr

namespace WiFiUDP

/-! ### Receiving -/

/-- `parsePacket`, with the datagrams that wait. The rest of a datagram that is
too long is dropped by `lwip_recvfrom`. -/
def parsePacket (u : WiFiUDP) (waiting : List Datagram) (alloc : Bool) :
    WiFiUDP × List Datagram × Outcome :=
  if u.rx_buffer.isSome then (u, waiting, ⟨0, []⟩)
  else if !alloc then (u, waiting, ⟨0, []⟩)
  else if !u.udp_server then (u, waiting, ⟨0, []⟩)
  else
    match waiting with
    | [] => (u, waiting, ⟨0, []⟩)
    | d :: waiting =>
      let buf := d.bytes.take kUdpBufferSize
      ({ u with remote := d.peer, rx_buffer := some buf, rx_len := buf.length, rx_pos := 0 },
        waiting, ⟨buf.length, []⟩)

/-- The bytes of the datagram that are not read yet. -/
def available (u : WiFiUDP) : Outcome :=
  match u.rx_buffer with
  | none => ⟨0, []⟩
  | some _ => ⟨(u.rx_len : Int) - u.rx_pos, []⟩

/-- The byte at the position. -/
def peek (u : WiFiUDP) : Outcome :=
  match u.rx_buffer with
  | none => ⟨-1, []⟩
  | some buf =>
    if u.rx_len ≤ u.rx_pos then ⟨-1, []⟩
    else ⟨((buf[u.rx_pos]?).getD 0).toNat, []⟩

/-- `read()`. -/
def read (u : WiFiUDP) : WiFiUDP × Outcome :=
  match u.rx_buffer with
  | none => (u, ⟨-1, []⟩)
  | some buf =>
    if u.rx_len ≤ u.rx_pos then (u, ⟨-1, []⟩)
    else ({ u with rx_pos := u.rx_pos + 1 }, ⟨((buf[u.rx_pos]?).getD 0).toNat, []⟩)

/-- What is left of the datagram is given up. -/
def flush (u : WiFiUDP) : WiFiUDP :=
  { u with rx_buffer := none, rx_len := 0, rx_pos := 0 }

/-- `read(buffer, len)`. The caller's buffer may be null. -/
def readInto (u : WiFiUDP) (given : Bool) (len : Nat) : WiFiUDP × Outcome :=
  match u.rx_buffer with
  | none => (u, ⟨0, []⟩)
  | some buf =>
    if !given || len == 0 then (u, ⟨0, []⟩)
    else
      let to_read := min (u.rx_len - u.rx_pos) len
      let copied := (buf.drop u.rx_pos).take to_read
      let u := { u with rx_pos := u.rx_pos + to_read }
      (if u.rx_len ≤ u.rx_pos then u.flush else u, ⟨to_read, copied⟩)

/-! ### Sending -/

/-- `beginPacket()`, and whether it returns 1. -/
def beginPacket (u : WiFiUDP) (alloc socket : Bool) : WiFiUDP × Bool :=
  if u.remote.port = 0 then (u, false)
  else if u.tx_buffer.isNone && !alloc then (u, false)
  else
    let u := { u with tx_buffer := some [] }
    if u.udp_server then (u, true)
    else ({ u with udp_server := socket }, socket)

/-- What `endPacket` hands to `lwip_sendto`. -/
def datagram (u : WiFiUDP) : Datagram :=
  ⟨u.remote, u.tx_buffer.getD []⟩

/-- `endPacket`, which leaves the object as it is: whether it returns 1. -/
def endPacket (u : WiFiUDP) (sent : Bool) : Bool :=
  u.udp_server && sent

/-- The buffer is full, so the next write sends it first. -/
def isFull (u : WiFiUDP) : Bool :=
  decide ((u.tx_buffer.getD []).length = kUdpBufferSize)

/-- `write(data)`. Without a buffer the write is undefined, and here nothing. -/
def write (u : WiFiUDP) (data : UInt8) : WiFiUDP :=
  match u.tx_buffer with
  | none => u
  | some buf => { u with tx_buffer := some ((if u.isFull then [] else buf) ++ [data]) }

end WiFiUDP

/-! ### The world -/

/-- History: a packet since `beginPacket` returned 1 for it. -/
structure Packet where
  dest : Endpoint
  written : List UInt8 := []
  handed : List Datagram := []
deriving DecidableEq, Repr

/-- The object, the datagrams that wait, and the packet that is open as history. -/
structure World where
  udp : WiFiUDP := {}
  waiting : List Datagram := []
  /-- History: the packet that is open. -/
  packet : Option Packet := none
  /-- History: the bytes in the transmit buffer that an ended packet left. -/
  stale : Nat := 0
deriving DecidableEq, Repr

/-- A new object, or one that `begin` has bound. -/
def World.new (begun : Bool) : World :=
  { udp := { udp_server := begun, tx_buffer := if begun then some [] else none } }

/-- Where a packet is to go: where the last one came from or went, to an
address, or to a host that is looked up. -/
inductive Target where
  | same
  | address (dest : Endpoint)
  | host (found : Option Nat) (port : Nat)
deriving DecidableEq, Repr

/-- The arrival of a datagram that fits a buffer, and the calls with what the
memory and the stack answer. -/
inductive Event where
  | arrive (d : {d : Datagram // d.bytes.length ≤ kUdpBufferSize})
  | parsePacket (alloc : Bool)
  | available
  | read
  | readInto (given : Bool) (len : Nat)
  | peek
  | flush
  | beginPacket (target : Target) (alloc socket : Bool)
  | write (data : UInt8) (sent : Bool)
  | endPacket (sent : Bool)
deriving DecidableEq, Repr

/-- The calls of the sending side. -/
def Event.sending : Event → Bool
  | .beginPacket _ _ _ | .write _ _ | .endPacket _ => true
  | _ => false

namespace World

/-- A packet is opened if `beginPacket` returns 1. The bytes of ended packets
are gone if the buffer was emptied. -/
def beginPacket (w : World) (alloc socket : Bool) : World × Outcome :=
  let b := w.udp.beginPacket alloc socket
  ({ w with
    udp := b.1
    packet := if b.2 then some { dest := w.udp.remote } else w.packet
    stale := if b.1.tx_buffer = some [] then 0 else w.stale }, ⟨if b.2 then 1 else 0, []⟩)

/-- A call of `beginPacket` for the target. -/
def beginTo (w : World) (target : Target) (alloc socket : Bool) : World × Outcome :=
  match target with
  | .same => w.beginPacket alloc socket
  | .address dest => { w with udp := { w.udp with remote := dest } }.beginPacket alloc socket
  | .host (some ip) port =>
    { w with udp := { w.udp with remote := ⟨ip, port⟩ } }.beginPacket alloc socket
  | .host none _ => (w, ⟨0, []⟩)

/-- A write that finds the buffer full sends it, and does not look at the
result. -/
def write (w : World) (data : UInt8) (sent : Bool) : World × Outcome :=
  let handed := if w.udp.isFull && w.udp.endPacket sent then [w.udp.datagram] else []
  ({ w with
    udp := w.udp.write data
    packet := w.packet.map fun p =>
      { p with written := p.written ++ [data], handed := p.handed ++ handed }
    stale := if w.udp.isFull then 0 else w.stale }, ⟨1, []⟩)

/-- The packet is over, and what is in the buffer belongs to it. -/
def endPacket (w : World) (sent : Bool) : World × Outcome :=
  ({ w with packet := none, stale := (w.udp.tx_buffer.getD []).length },
    ⟨if w.udp.endPacket sent then 1 else 0, []⟩)

/-- `parsePacket`, with what waits at the socket. -/
def parsePacket (w : World) (alloc : Bool) : World × Outcome :=
  let r := w.udp.parsePacket w.waiting alloc
  ({ w with udp := r.1, waiting := r.2.1 }, r.2.2)

end World

/-- What an event does, and what the call returns. -/
def turn (w : World) : Event → World × Outcome
  | .arrive d => (if w.udp.udp_server then { w with waiting := w.waiting ++ [d.1] } else w, ⟨0, []⟩)
  | .parsePacket alloc => w.parsePacket alloc
  | .available => (w, w.udp.available)
  | .read => ({ w with udp := w.udp.read.1 }, w.udp.read.2)
  | .readInto given len =>
    ({ w with udp := (w.udp.readInto given len).1 }, (w.udp.readInto given len).2)
  | .peek => (w, w.udp.peek)
  | .flush => ({ w with udp := w.udp.flush }, ⟨0, []⟩)
  | .beginPacket target alloc socket => w.beginTo target alloc socket
  | .write data sent => w.write data sent
  | .endPacket sent => w.endPacket sent

/-- The world behind an event. -/
def step (w : World) (e : Event) : World :=
  (turn w e).1

/-- `write(buffer, size)`, with the results of the sends it may make. -/
def writeAll (w : World) (data : List (UInt8 × Bool)) : World :=
  run step w (data.map fun d => .write d.1 d.2)

end WiFi.Udp

end ArduinoBeken
