import ArduinoBeken.Library.Arena
import ArduinoBeken.Net.Endpoint
import ArduinoBeken.WiFi.Udp

/-!
# A UDP Object and Its Memory

`WiFiUDP` with the socket and the two buffers as what they are: a descriptor and pointers, to
a socket and to blocks of the heap. Sockets and blocks are numbered as they are made, so that
a number never comes back, and the heap has the bytes of its blocks.

Every access goes through `store`, `fill` or `load`, which check it: one to no block, to a
block that was freed, or past the end of its block is a fault, and recorded. What the code
hands to lwIP besides is recorded as well. The code never reads either record.

## Main definitions

* `WiFiUDP`, `World`: The object, and what it stands in.
* `World.store`, `World.fill`, `World.load`: The accesses.
* `World.stop`, `World.begin`, `World.beginPacket` and so on: The functions.
* `Event`, `step`: The calls, with what the heap and lwIP answer.
-/

namespace ArduinoBeken

namespace WiFi.UdpObject

open Net WiFi.StaticIp
open WiFi.Udp (kUdpBufferSize Outcome)

/-- The members of the object. A block of memory is a number. -/
structure WiFiUDP where
  /-- The socket behind `_udp_server`, if that is not negative. -/
  udp_server : Option Nat := none
  multicast_ip : IPAddress := .zero
  remote_ip : IPAddress := .zero
  server_port : UInt16 := 0
  remote_port : UInt16 := 0
  tx_buffer : Option Nat := none
  tx_buffer_len : Nat := 0
  rx_buffer : Option Nat := none
  rx_len : Nat := 0
  rx_pos : Nat := 0
deriving DecidableEq, Repr

/-- What the code hands to lwIP besides sockets. -/
inductive LwipCall where
  | bind (addr : SockaddrIn)
  | addMembership (group : UInt32)
  | dropMembership (group : UInt32)
  | sendto (recipient : SockaddrIn) (bytes : List UInt8)
deriving DecidableEq, Repr

/-- An access that is a fault: the pointer, and the first index behind what is touched. -/
structure Fault where
  pointer : Option Nat
  bound : Nat
deriving DecidableEq, Repr

/-- The object, the sockets and the memory, with what was sent as history. -/
structure World where
  udp : WiFiUDP := {}
  sockets : Arena := {}
  heap : Arena := {}
  /-- The bytes of the blocks. -/
  bytes : Nat → Nat → UInt8 := fun _ _ => 0
  calls : List LwipCall := []
  faults : List Fault := []

/-- A new object, before anything was allocated. -/
def World.new : World := {}

/-- What the heap and lwIP answer to `begin`. -/
structure BeginAnswers where
  alloc : Bool
  socket : Bool
  reuse : Bool
  bind : Bool
deriving DecidableEq, Repr

/-- Where a packet is to go: where the last one came from or went, to an address, or to a host
that is looked up. -/
inductive Target where
  | same
  | address (ip : IPAddress) (port : UInt16)
  | host (found : Option IPAddress) (port : UInt16)
deriving DecidableEq, Repr

namespace World

/-! ### Memory -/

/-- So many bytes from the front of the block may be touched. -/
def Allows (w : World) (p : Option Nat) (bound : Nat) : Prop :=
  bound ≤ kUdpBufferSize ∧ ∃ k ∈ p, w.heap.Live k

instance (w : World) (p : Option Nat) (bound : Nat) : Decidable (w.Allows p bound) :=
  inferInstanceAs (Decidable (_ ∧ _))

/-- The access is recorded if it is a fault. -/
def touch (w : World) (p : Option Nat) (bound : Nat) : World :=
  if w.Allows p bound then w else { w with faults := w.faults ++ [⟨p, bound⟩] }

/-- `p[index] = data`. -/
def store (w : World) (p : Option Nat) (index : Nat) (data : UInt8) : World :=
  let w := w.touch p (index + 1)
  match p with
  | none => w
  | some k =>
    { w with bytes := Function.update w.bytes k (Function.update (w.bytes k) index data) }

/-- The bytes are written to the front of the block. -/
def fill (w : World) (k : Nat) (data : List UInt8) : World :=
  let w := if data = [] then w else w.touch (some k) data.length
  { w with bytes := Function.update w.bytes k fun i => data.getD i (w.bytes k i) }

/-- So many bytes are read from the position. Reading none is no access. -/
def load (w : World) (p : Option Nat) (pos count : Nat) : World × List UInt8 :=
  (if count = 0 then w else w.touch p (pos + count),
    (List.range count).map fun i => (p.map fun k => w.bytes k (pos + i)).getD 0)

/-! ### The life of the socket and of the buffers -/

/-- The first half of `stop`. -/
def freeBuffers (w : World) : World :=
  { w with
    heap := (w.heap.give w.udp.tx_buffer).give w.udp.rx_buffer
    udp := { w.udp with
      tx_buffer := none, tx_buffer_len := 0, rx_buffer := none, rx_len := 0, rx_pos := 0 } }

/-- `stop`: the buffers are freed, and the socket is closed. -/
def stop (w : World) : World :=
  let w := w.freeBuffers
  match w.udp.udp_server with
  | none => w
  | some fd =>
    { w with
      sockets := w.sockets.free fd
      calls :=
        if w.udp.multicast_ip = .zero then w.calls
        else w.calls ++ [.dropMembership (IPAddress.toUInt32 w.udp.multicast_ip)]
      udp := { w.udp with udp_server := none, multicast_ip := .zero, server_port := 0 } }

/-- `_tx_buffer = os_malloc(kUdpBufferSize)`, which may fail. -/
def mallocTx (w : World) (alloc : Bool) : World :=
  if alloc then
    { w with heap := w.heap.alloc, udp := { w.udp with tx_buffer := some w.heap.made } }
  else { w with udp := { w.udp with tx_buffer := none } }

/-- `_udp_server = lwip_socket(...)`, which may fail. -/
def openSocket (w : World) (socket : Bool) : World :=
  if socket then
    { w with sockets := w.sockets.alloc, udp := { w.udp with udp_server := some w.sockets.made } }
  else { w with udp := { w.udp with udp_server := none } }

variable (m : Conversions)

/-- The sender of the last datagram, or the target of the next. -/
def remoteIP (w : World) : IPAddress := w.udp.remote_ip

/-- Its port. -/
def remotePort (w : World) : UInt16 := w.udp.remote_port

/-- `begin(IPAddress, uint16_t)`, and whether it returns 1. -/
def begin (w : World) (address : IPAddress) (port : UInt16) (r : BeginAnswers) : World × Bool :=
  let w := w.stop
  let w := { w with udp := { w.udp with server_port := port } }
  let w := w.mallocTx r.alloc
  if !r.alloc then (w, false)
  else
    let w := w.openSocket r.socket
    if !r.socket then (w.stop, false)
    else if !r.reuse then (w.stop, false)
    else
      let w := { w with
        calls := w.calls ++ [.bind ⟨m.PP_HTONS port, IPAddress.toUInt32 address⟩] }
      if !r.bind then (w.stop, false) else (w, true)

/-- `beginMulticast`, with what joining the group answers. -/
def beginMulticast (w : World) (a : IPAddress) (p : UInt16) (r : BeginAnswers) (join : Bool) :
    World × Bool :=
  let b := w.begin m .zero p r
  if !b.2 then (b.1, false)
  else if a = .zero then (b.1, true)
  else
    let w : World := { b.1 with calls := b.1.calls ++ [.addMembership (IPAddress.toUInt32 a)] }
    if !join then (w.stop, false)
    else ({ w with udp := { w.udp with multicast_ip := a } }, true)

/-! ### Sending -/

/-- `beginPacket()`, and whether it returns 1. -/
def beginPacket (w : World) (alloc socket : Bool) : World × Bool :=
  if w.udp.remote_port = 0 then (w, false)
  else
    let w := if w.udp.tx_buffer.isNone then w.mallocTx alloc else w
    if w.udp.tx_buffer.isNone then (w, false)
    else
      let w := { w with udp := { w.udp with tx_buffer_len := 0 } }
      if w.udp.udp_server.isSome then (w, true) else (w.openSocket socket, socket)

/-- The other end of a packet from now on. -/
def setRemote (w : World) (ip : IPAddress) (port : UInt16) : World :=
  { w with udp := { w.udp with remote_ip := ip, remote_port := port } }

/-- `beginPacket` for the target. -/
def beginTo (w : World) (target : Target) (alloc socket : Bool) : World × Bool :=
  match target with
  | .same => w.beginPacket alloc socket
  | .address ip port => (w.setRemote ip port).beginPacket alloc socket
  | .host (some ip) port => (w.setRemote ip port).beginPacket alloc socket
  | .host none _ => (w, false)

/-- `beginMulticastPacket`, if a group was joined. -/
def beginMulticastPacket (w : World) (alloc socket : Bool) : World × Bool :=
  if w.udp.server_port = 0 ∨ w.udp.multicast_ip = .zero then (w, false)
  else (w.setRemote w.udp.multicast_ip w.udp.server_port).beginPacket alloc socket

/-- The address that `endPacket` fills in. -/
def recipient (u : WiFiUDP) : SockaddrIn :=
  ⟨m.PP_HTONS u.remote_port, IPAddress.toUInt32 u.remote_ip⟩

/-- `endPacket`, whatever `lwip_sendto` answers. -/
def endPacket (w : World) : World :=
  let r := w.load w.udp.tx_buffer 0 w.udp.tx_buffer_len
  { r.1 with calls := r.1.calls ++ [.sendto (recipient m w.udp) r.2] }

/-- `write(data)`. A full buffer is sent first. -/
def write (w : World) (data : UInt8) : World :=
  let w :=
    if w.udp.tx_buffer_len = kUdpBufferSize then
      { w.endPacket m with udp := { w.udp with tx_buffer_len := 0 } }
    else w
  let w := w.store w.udp.tx_buffer w.udp.tx_buffer_len data
  { w with udp := { w.udp with tx_buffer_len := w.udp.tx_buffer_len + 1 } }

/-- `write(buffer, size)`; `none` is a null pointer. -/
def writeAll (w : World) (buffer : Option (List UInt8)) : World × Nat :=
  match buffer with
  | none => (w, 0)
  | some data => (data.foldl (write m) w, data.length)

/-! ### Receiving -/

/-- `parsePacket`, with the datagram that `lwip_recvfrom` finds, if any. -/
def parsePacket (w : World) (alloc : Bool) (received : Option (SockaddrIn × List UInt8)) :
    World × Int :=
  if w.udp.rx_buffer.isSome then (w, 0)
  else if !alloc then (w, 0)
  else
    let buf := w.heap.made
    let w := { w with heap := w.heap.alloc }
    -- There is nothing to receive without a socket.
    match w.udp.udp_server.bind fun _ => received with
    | none => ({ w with heap := w.heap.free buf }, 0)
    | some (peer, datagram) =>
      let data := datagram.take kUdpBufferSize
      let w := w.fill buf data
      ({ w with udp := { w.udp with
          remote_ip := IPAddress.ofUInt32 peer.s_addr
          remote_port := m.PP_NTOHS peer.sin_port
          rx_buffer := some buf, rx_len := data.length, rx_pos := 0 } }, data.length)

/-- The bytes of the datagram that are not read yet. -/
def available (w : World) : Int :=
  if w.udp.rx_buffer.isNone then 0 else (w.udp.rx_len : Int) - w.udp.rx_pos

/-- `read()`. -/
def read (w : World) : World × Int :=
  if w.udp.rx_buffer.isNone ∨ w.udp.rx_len ≤ w.udp.rx_pos then (w, -1)
  else
    let r := w.load w.udp.rx_buffer w.udp.rx_pos 1
    ({ r.1 with udp := { r.1.udp with rx_pos := r.1.udp.rx_pos + 1 } }, (r.2.headD 0).toNat)

/-- The next byte, which stays, or -1. -/
def peek (w : World) : World × Int :=
  if w.udp.rx_buffer.isNone ∨ w.udp.rx_len ≤ w.udp.rx_pos then (w, -1)
  else
    let r := w.load w.udp.rx_buffer w.udp.rx_pos 1
    (r.1, (r.2.headD 0).toNat)

/-- What is left of the datagram is given up. -/
def flush (w : World) : World :=
  { w with
    heap := w.heap.give w.udp.rx_buffer
    udp := { w.udp with rx_buffer := none, rx_len := 0, rx_pos := 0 } }

/-- `read(buffer, len)`. The caller's buffer may be null. -/
def readInto (w : World) (given : Bool) (len : Nat) : World × Outcome :=
  if w.udp.rx_buffer.isNone ∨ given = false ∨ len = 0 then (w, ⟨0, []⟩)
  else
    let to_read := min (w.udp.rx_len - w.udp.rx_pos) len
    let r := w.load w.udp.rx_buffer w.udp.rx_pos to_read
    let w : World := { r.1 with udp := { r.1.udp with rx_pos := r.1.udp.rx_pos + to_read } }
    (if w.udp.rx_len ≤ w.udp.rx_pos then w.flush else w, ⟨to_read, r.2⟩)

end World

/-! ### Runs -/

/-- The calls. The end of the object is one of them. -/
inductive Event where
  | begin (address : IPAddress) (port : UInt16) (r : BeginAnswers)
  | beginMulticast (a : IPAddress) (p : UInt16) (r : BeginAnswers) (join : Bool)
  | beginPacket (target : Target) (alloc socket : Bool)
  | beginMulticastPacket (alloc socket : Bool)
  | write (data : UInt8)
  | writeAll (buffer : Option (List UInt8))
  | endPacket
  | parsePacket (alloc : Bool) (received : Option (SockaddrIn × List UInt8))
  | available
  | read
  | readInto (given : Bool) (len : Nat)
  | peek
  | flush
  | stop
  | destroy

/-- One call of the sketch. -/
def step (m : Conversions) (w : World) : Event → World
  | .begin address port r => (w.begin m address port r).1
  | .beginMulticast a p r join => (w.beginMulticast m a p r join).1
  | .beginPacket target alloc socket => (w.beginTo target alloc socket).1
  | .beginMulticastPacket alloc socket => (w.beginMulticastPacket alloc socket).1
  | .write data => w.write m data
  | .writeAll buffer => (w.writeAll m buffer).1
  | .endPacket => w.endPacket m
  | .parsePacket alloc received => (w.parsePacket m alloc received).1
  | .available => w
  | .read => w.read.1
  | .readInto given len => (w.readInto given len).1
  | .peek => w.peek.1
  | .flush => w.flush
  | .stop => w.stop
  | .destroy => w.stop

end WiFi.UdpObject

end ArduinoBeken
