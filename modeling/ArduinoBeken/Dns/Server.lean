import ArduinoBeken.Dns.NameText
import ArduinoBeken.Library.ByteOrder
import ArduinoBeken.Library.CheckedBytes
import ArduinoBeken.WiFi.StaticIp
import ArduinoBeken.WiFi.Udp

/-!
# The DNS Server

`DNSServer` with the UDP object it listens on. The packet, the buffer for the name and the
transmit buffer are memory of a known size, and every access is checked: one past the end is a
fault, and behind a fault the world stands still.

The world has the datagrams that wait at the socket, and as history those that were handed to
lwIP and what the sketch has configured. The code never reads history.

A header is twelve bytes in memory, and its numbers are what this little-endian machine reads
there, so that a number on the wire is `ntohs` of it. Memory from `malloc` may hold anything.

## Main definitions

* `DNSHeader`, `DNSQuestion`, `DNSServer`: The server, and what it takes from a packet.
* `copyLabels`, `copyQuestion`: The scan that copies the question.
* `parsedLabels`, `getDomainNameWithoutWwwPrefix`: The scan that reads the name.
* `World.replyWithIP`, `World.replyWithCustomCode`: The replies.
* `World.processNextRequest`, `World.start`, `World.stop`: The calls.
* `Event`, `turn`, `step`: The calls with what memory and lwIP answer, and what arrives.
-/

namespace ArduinoBeken

namespace Dns

open CheckedBytes (Block Fault load byte store)
open WiFi.StaticIp (IPAddress)
open WiFi.Udp (WiFiUDP Datagram)
open Text

/-! ### What the server holds -/

/-- The QR bit of a query. -/
def DNS_QR_QUERY : Nat := 0
/-- The QR bit of a response. -/
def DNS_QR_RESPONSE : Nat := 1
/-- The opcode of a standard query. -/
def DNS_OPCODE_QUERY : Nat := 0
/-- The seconds that an answer may be kept, if the sketch sets no others. -/
def DNS_DEFAULT_TTL : Nat := 60
/-- The place of the first name in a message. -/
def DNS_OFFSET_DOMAIN_NAME : Nat := 12
/-- The bytes of a header. -/
def DNS_HEADER_SIZE : Nat := 12
/-- The type of a record with an address. -/
def DNS_TYPE_A : Nat := 1
/-- The class of the Internet. -/
def DNS_CLASS_IN : Nat := 1
/-- The bytes of an address in a record. -/
def DNS_RDLENGTH_IPV4 : Nat := 4

/-- The codes of a reply. -/
inductive DNSReplyCode where
  | NoError
  | FormError
  | ServerFailure
  | NonExistentDomain
  | NotImplemented
  | Refused
  | YXDomain
  | YXRRSet
  | NXRRSet
deriving DecidableEq, Repr

/-- The number of a code. -/
def DNSReplyCode.toNat : DNSReplyCode → Nat
  | NoError => 0
  | FormError => 1
  | ServerFailure => 2
  | NonExistentDomain => 3
  | NotImplemented => 4
  | Refused => 5
  | YXDomain => 6
  | YXRRSet => 7
  | NXRRSet => 8

/-- From the order of the network to that of the processor. -/
def ntohs (x : Nat) : Nat := ByteOrder.swap 2 x

/-- From the order of the processor to that of the network. -/
def htons (x : Nat) : Nat := ByteOrder.swap 2 x

/-- The same for four bytes. -/
def htonl (x : Nat) : Nat := ByteOrder.swap 4 x

/-- The header of the message in the buffer, with its bit fields taken apart. -/
structure DNSHeader where
  ID : Nat
  RD : Nat
  TC : Nat
  AA : Nat
  OPCode : Nat
  QR : Nat
  RCode : Nat
  Z : Nat
  RA : Nat
  QDCount : Nat
  ANCount : Nat
  NSCount : Nat
  ARCount : Nat
deriving DecidableEq, Repr

/-- The `uint16_t` at the place. -/
def halfword (bytes : List UInt8) (pos : Nat) : Nat :=
  ByteOrder.ofBytes ((bytes.drop pos).take 2)

/-- The header whose memory the bytes are. -/
def DNSHeader.ofBytes (bytes : List UInt8) : DNSHeader :=
  -- the bits are laid out from the lowest on, as the compiler lays out the fields
  let Flags := halfword bytes 2
  { ID := halfword bytes 0
    RD := Flags % 2
    TC := Flags / 2 % 2
    AA := Flags / 4 % 2
    OPCode := Flags / 8 % 16
    QR := Flags / 128 % 2
    RCode := Flags / 256 % 16
    Z := Flags / 4096 % 8
    RA := Flags / 32768 % 2
    QDCount := halfword bytes 4
    ANCount := halfword bytes 6
    NSCount := halfword bytes 8
    ARCount := halfword bytes 10 }

/-- The union's other side. -/
def DNSHeader.Flags (h : DNSHeader) : Nat :=
  h.RD + 2 * h.TC + 4 * h.AA + 8 * h.OPCode + 128 * h.QR + 256 * h.RCode + 4096 * h.Z +
    32768 * h.RA

/-- The memory of the header. -/
def DNSHeader.toBytes (h : DNSHeader) : List UInt8 :=
  ByteOrder.toBytes 2 h.ID ++ ByteOrder.toBytes 2 h.Flags ++ ByteOrder.toBytes 2 h.QDCount ++
    ByteOrder.toBytes 2 h.ANCount ++ ByteOrder.toBytes 2 h.NSCount ++
    ByteOrder.toBytes 2 h.ARCount

/-- The question of the message in the buffer. The name is in wire form. -/
structure DNSQuestion where
  QName : Block 256
  QNameLength : Nat
  QType : Block 2
  QClass : Block 2
deriving DecidableEq, Repr

/-- The members of the object. Without memory there is no buffer, no header and no question. -/
structure DNSServer where
  udp : WiFiUDP := {}
  port : UInt16 := 0
  domainName : Text := []
  resolvedIP : Block 4 := Block.zeros 4
  currentPacketSize : Int := 0
  buffer : Option (List UInt8) := none
  dnsHeader : Option DNSHeader
  ttl : Nat := htonl DNS_DEFAULT_TTL
  errorReplyCode : DNSReplyCode := .NonExistentDomain
  dnsQuestion : Option DNSQuestion
deriving DecidableEq, Repr

/-- History: what the sketch asked for. -/
structure Configured where
  domainName : Text := []
  resolvedIP : IPAddress := .zero
  errorReplyCode : DNSReplyCode := .NonExistentDomain
deriving DecidableEq, Repr

/-- The server, the datagrams that wait at its socket, and what was handed to the network. -/
structure World where
  server : DNSServer
  waiting : List Datagram := []
  /-- History: what `lwip_sendto` was called with. -/
  handed : List Datagram := []
  configured : Configured := {}
  /-- The access that was one too many. -/
  fault : Option Fault := none
deriving DecidableEq, Repr

/-- A new server, with what `malloc` gave it. -/
def World.new (dnsHeader : Option DNSHeader) (dnsQuestion : Option DNSQuestion) : World :=
  { server := { dnsHeader := dnsHeader, dnsQuestion := dnsQuestion } }

/-- What memory and lwIP answer to a call of `processNextRequest`: to the `malloc` of
    `parsePacket`, to its own, and to `beginPacket`. -/
structure Answers where
  rx : Bool
  buffer : Bool
  tx : Bool
  socket : Bool
deriving DecidableEq, Repr

/-- `resolvedIP[index]`. -/
def octet (ip : IPAddress) (index : Nat) : UInt8 :=
  match ip with
  | .v4 a b c d => [a, b, c, d].getD index 0
  | .v6 groups => (groups.flatMap fun group => [group.1, group.2]).getD index 0

/-! ### The scans -/

/-- The header counts one question and no record. -/
def requestIncludesOnlyOneQuestion (h : DNSHeader) : Bool :=
  ntohs h.QDCount == 1 && h.ANCount == 0 && h.NSCount == 0 && h.ARCount == 0

/-- The loop that copies label after label. `QNameLength` is a `uint16_t`. -/
def copyLabels (buffer : List UInt8) (q : DNSQuestion) : Except Fault DNSQuestion :=
  match byte buffer (DNS_HEADER_SIZE + q.QNameLength) with
  | .error f => .error f
  | .ok labelLength =>
    if labelLength = 0 then .ok q
    else
      -- the length goes with its label, in one `memcpy`
      match load buffer (DNS_HEADER_SIZE + q.QNameLength) (labelLength.toNat + 1) with
      | .error f => .error f
      | .ok label =>
        match _h : store q.QName q.QNameLength label.1 with
        | .error f => .error f
        | .ok QName =>
          copyLabels buffer { q with
            QName := QName
            QNameLength := (q.QNameLength + (labelLength.toNat + 1)) % 2 ^ 16 }
termination_by 256 - q.QNameLength
decreasing_by
  have hstore := ((CheckedBytes.store_eq_ok _ _ _ _).1 _h).1
  rw [label.2] at hstore
  simp only [Nat.reducePow]
  omega

/-- What `processNextRequest` copies of a request with one question. -/
def copyQuestion (buffer : List UInt8) (q : DNSQuestion) : Except Fault DNSQuestion := do
  let q ← copyLabels buffer { q with QNameLength := 0 }
  let QName ← store q.QName q.QNameLength [0]
  let q := { q with QName := QName, QNameLength := (q.QNameLength + 1) % 2 ^ 16 }
  let QType ← load buffer (DNS_HEADER_SIZE + q.QNameLength) 2
  let QClass ← load buffer (DNS_HEADER_SIZE + q.QNameLength + 2) 2
  pure { q with QType := QType, QClass := QClass }

/-- The question of a request, which is copied if it is the only one. -/
def takeQuestion (h : DNSHeader) (buffer : List UInt8) (q : DNSQuestion) :
    Except Fault DNSQuestion :=
  if requestIncludesOnlyOneQuestion h then copyQuestion buffer q else .ok q

/-- The loop of `getDomainNameWithoutWwwPrefix`. -/
def parsedLabels (buffer : List UInt8) (pos : Nat) (parsedDomainName : Text) :
    Except Fault Text :=
  match byte buffer (DNS_OFFSET_DOMAIN_NAME + pos) with
  | .error f => .error f
  | .ok labelLength =>
    match load buffer (DNS_OFFSET_DOMAIN_NAME + pos + 1) labelLength.toNat with
    | .error f => .error f
    | .ok label =>
      match _h : byte buffer (DNS_OFFSET_DOMAIN_NAME + (pos + labelLength.toNat + 1)) with
      | .error f => .error f
      | .ok next =>
        -- a dot stands between labels, not behind the last one
        if next = 0 then .ok (parsedDomainName ++ label.1)
        else parsedLabels buffer (pos + labelLength.toNat + 1) (parsedDomainName ++ label.1 ++ [46])
termination_by buffer.length - pos
decreasing_by
  have := CheckedBytes.byte_lt _ _ _ ((CheckedBytes.byte_eq_ok _ _ _).1 _h)
  omega

/-- The name that is asked for, in lower case and without `www.`. -/
def getDomainNameWithoutWwwPrefix (buffer : Option (List UInt8)) : Except Fault Text :=
  match buffer with
  | none => .ok []
  | some buffer => do
    let start ← byte buffer DNS_OFFSET_DOMAIN_NAME
    if start = 0 then pure []
    else
      let parsedDomainName ← parsedLabels buffer 0 []
      pure (downcaseAndRemoveWwwPrefix parsedDomainName)

/-! ### The UDP object -/

/-- `WiFiUDP::stop`. -/
def udpStop (u : WiFiUDP) : WiFiUDP :=
  { u with udp_server := false, tx_buffer := none, rx_buffer := none, rx_len := 0, rx_pos := 0 }

/-- `WiFiUDP::begin`, and whether it returns 1. -/
def udpBegin (u : WiFiUDP) (began : Bool) : WiFiUDP :=
  if began then { udpStop u with udp_server := true, tx_buffer := some [] } else udpStop u

namespace World

/-- The server with another state of its UDP object. -/
def setUdp (w : World) (u : WiFiUDP) : World :=
  { w with server := { w.server with udp := u } }

/-- `_udp.write(data)`. The object does not look whether it has a buffer. -/
def write (w : World) (data : UInt8) : Except Fault World :=
  match w.server.udp.tx_buffer with
  | none => .error ⟨.write, 0, 1, 0⟩
  | some _ =>
    .ok { w.setUdp (w.server.udp.write data) with
      handed :=
        if w.server.udp.isFull then w.handed ++ [w.server.udp.datagram] else w.handed }

/-- `_udp.write(buffer, size)`. -/
def writeAll (w : World) : List UInt8 → Except Fault World
  | [] => .ok w
  | b :: data => do
    let w ← w.write b
    writeAll w data

/-- `_udp.beginPacket(_udp.remoteIP(), _udp.remotePort())`, whose result is not looked at. -/
def beginPacket (w : World) (a : Answers) : World :=
  w.setUdp (w.server.udp.beginPacket a.tx a.socket).1

/-- `WiFiUDP::endPacket`: the datagram that was put together is handed over. -/
def endPacket (w : World) : World :=
  { w with handed := w.handed ++ [w.server.udp.datagram] }

/-! ### The replies -/

/-- The server with another header. -/
def setHeader (w : World) (h : DNSHeader) : World :=
  { w with server := { w.server with dnsHeader := some h } }

/-- The answer with the configured address, which repeats the question's name. -/
def replyWithIP (w : World) (h : DNSHeader) (q : DNSQuestion) (a : Answers) :
    Except Fault World := do
  let w := w.beginPacket a
  let h := { h with QR := DNS_QR_RESPONSE, ANCount := h.QDCount }
  let w := w.setHeader h
  let w ← w.writeAll h.toBytes
  -- the name goes out by its own length, whatever was asked
  let QName ← load q.QName.1 0 q.QNameLength
  let w ← w.writeAll QName.1
  let w ← w.writeAll q.QType.1
  let w ← w.writeAll q.QClass.1
  -- a pointer to the name behind the header
  let w ← w.writeAll [0xC0]
  let w ← w.writeAll [UInt8.ofNat DNS_OFFSET_DOMAIN_NAME]
  let w ← w.writeAll (ByteOrder.toBytes 2 (htons DNS_TYPE_A))
  let w ← w.writeAll (ByteOrder.toBytes 2 (htons DNS_CLASS_IN))
  let w ← w.writeAll (ByteOrder.toBytes 4 w.server.ttl)
  let w ← w.writeAll (ByteOrder.toBytes 2 (htons DNS_RDLENGTH_IPV4))
  let w ← w.writeAll w.server.resolvedIP.1
  pure w.endPacket

/-- The answer with the code that is configured, and no question. -/
def replyWithCustomCode (w : World) (h : DNSHeader) (a : Answers) : Except Fault World := do
  -- the counts of the other sections stay
  let h := { h with
    QR := DNS_QR_RESPONSE, RCode := w.server.errorReplyCode.toNat % 16, QDCount := 0 }
  let w := w.setHeader h
  let w := w.beginPacket a
  let w ← w.writeAll h.toBytes
  pure w.endPacket

/-! ### The calls -/

/-- The condition under which a request is answered with the address. -/
def resolves (w : World) (h : DNSHeader) : Except Fault Bool :=
  if h.QR = DNS_QR_QUERY ∧ h.OPCode = DNS_OPCODE_QUERY ∧ requestIncludesOnlyOneQuestion h then
    if equalsCstr w.server.domainName star then .ok true
    else do
      let name ← getDomainNameWithoutWwwPrefix w.server.buffer
      pure (equals name w.server.domainName)
  else .ok false

/-- What `processNextRequest` does with a header and a question that were copied. -/
def reply (w : World) (h : DNSHeader) (q : DNSQuestion) (a : Answers) : Except Fault World := do
  if ← w.resolves h then w.replyWithIP h q a
  else if h.QR = DNS_QR_QUERY then w.replyWithCustomCode h a
  else pure w

/-- What `processNextRequest` does with a packet that is in the buffer. -/
def handle (w : World) (buffer : List UInt8) (question : DNSQuestion) (a : Answers) :
    Except Fault World := do
  let header ← load buffer 0 DNS_HEADER_SIZE
  let h := DNSHeader.ofBytes header.1
  let q ← takeQuestion h buffer question
  let w := { w with server := { w.server with dnsHeader := some h, dnsQuestion := some q } }
  let w ← w.reply h q a
  pure { w with server := { w.server with buffer := none } }

/-- A datagram, if there is one, is read into a buffer of its own and handled. Nothing is done
by a server without a header. -/
def processNextRequest (w : World) (a : Answers) : Except Fault World :=
  match w.server.dnsHeader, w.server.dnsQuestion with
  | some _, some question =>
    let r := w.server.udp.parsePacket w.waiting a.rx
    let w := { w with
      server := { w.server with udp := r.1, currentPacketSize := r.2.2.ret }
      waiting := r.2.1 }
    if r.2.2.ret = 0 then .ok w
    -- without memory the packet stays in the UDP object
    else if !a.buffer then .ok { w with server := { w.server with buffer := none } }
    else
      let read := w.server.udp.readInto true w.server.currentPacketSize.toNat
      let buffer := read.2.copied
      handle { w with server := { w.server with udp := read.1, buffer := some buffer } }
        buffer question a
  | _, _ => .ok w

/-- What waits at a socket is lost when it is closed. -/
def start (w : World) (port : UInt16) (domainName : Text) (resolvedIP : IPAddress)
    (began : Bool) : World :=
  { w with
    server := { w.server with
      port := port
      buffer := none
      domainName := downcaseAndRemoveWwwPrefix domainName
      resolvedIP :=
        ⟨[octet resolvedIP 0, octet resolvedIP 1, octet resolvedIP 2, octet resolvedIP 3], rfl⟩
      udp := udpBegin w.server.udp began }
    waiting := []
    configured := { w.configured with domainName := domainName, resolvedIP := resolvedIP } }

/-- The socket is closed, and what waited there is lost. -/
def stop (w : World) : World :=
  { w with
    server := { w.server with udp := udpStop w.server.udp, buffer := none }
    waiting := [] }

/-- The code of the replies that decline. -/
def setErrorReplyCode (w : World) (replyCode : DNSReplyCode) : World :=
  { w with
    server := { w.server with errorReplyCode := replyCode }
    configured := { w.configured with errorReplyCode := replyCode } }

/-- The TTL is kept in the order of the network. -/
def setTTL (w : World) (ttl : UInt32) : World :=
  { w with server := { w.server with ttl := htonl ttl.toNat } }

/-- A datagram waits if there is a socket. -/
def arrive (w : World) (d : Datagram) : World :=
  if w.server.udp.udp_server then { w with waiting := w.waiting ++ [d] } else w

end World

/-- The calls with what memory and lwIP answer, and a datagram that arrives. -/
inductive Event where
  | start (port : UInt16) (domainName : Text) (resolvedIP : IPAddress) (began : Bool)
  | stop
  | setErrorReplyCode (replyCode : DNSReplyCode)
  | setTTL (ttl : UInt32)
  | processNextRequest (a : Answers)
  | arrive (d : Datagram)
deriving DecidableEq, Repr

/-- One event at the server. -/
def turn (w : World) : Event → Except Fault World
  | .start port domainName resolvedIP began => .ok (w.start port domainName resolvedIP began)
  | .stop => .ok w.stop
  | .setErrorReplyCode replyCode => .ok (w.setErrorReplyCode replyCode)
  | .setTTL ttl => .ok (w.setTTL ttl)
  | .processNextRequest a => w.processNextRequest a
  | .arrive d => .ok (w.arrive d)

/-- Behind a fault nothing is known, and the world stands still. -/
def step (w : World) (e : Event) : World :=
  if w.fault.isSome then w
  else
    match turn w e with
    | .ok w => w
    | .error f => { w with fault := some f }

end Dns

end ArduinoBeken
