import ArduinoBeken.Tls.SslClient
import Mathlib

/-!
# The Secure Client

A `WiFiClientSecure` wraps an `sslclient_context`. Its sources of trust are
separate fields, its look-ahead byte is `_peek`, and `_connected` belongs to
the client it inherits from, whose own descriptor stays unused.

The certificate bundle is global to the program, so the methods that use it
take it as an argument and `setCACertBundle` returns the new one.

`peek` reads through `timedRead`, which calls `read` until a byte arrives or
the deadline of the stream has passed.

## Main definitions

* `WiFiClientSecure`: The client object.
* `WiFiClientSecure.stop`, `WiFiClientSecure.connectHost`, ...: The methods.
* `SslRead`: What `mbedtls_ssl_read` answers.

## Theorems

* `WiFiClientSecure.stop_client`: The client after `stop`.
-/

namespace ArduinoBeken.Tls

open Net (SocketCall Outcome)
open Polling (Timed poll)

/-- A `WiFiClientSecure` object. -/
structure WiFiClientSecure where
  sslclient : SslClientContext
  connected : Bool := false
  timeout : Int := 30000
  lastError : Int := 0
  /-- `_peek`, where no byte is -1 in the source. -/
  peeked : Option UInt8 := none
  useInsecure : Bool := false
  caCert : Option CStr := none
  cert : Option CStr := none
  privateKey : Option CStr := none
  pskIdent : Option CStr := none
  psKey : Option CStr := none
  alpnProtos : Option (List CStr) := none
  useCaBundle : Bool := false
deriving DecidableEq, Repr

/-- What `mbedtls_ssl_read` answers: at least a byte, the end of the stream,
or the negative code `-(n + 1)`. -/
inductive SslRead where
  | data (first : UInt8) (rest : List UInt8)
  | endOfStream
  | failed (n : Nat)
deriving DecidableEq, Repr

namespace SslRead

/-- The bytes written to a buffer of `size` bytes. -/
def bytes (size : Nat) : SslRead → List UInt8
  | .data first rest => (first :: rest).take size
  | .endOfStream => []
  | .failed _ => []

/-- The return value. -/
def code (size : Nat) : SslRead → Int
  | .data first rest => ((first :: rest).take size).length
  | .endOfStream => 0
  | .failed n => Int.negSucc n

end SslRead

namespace WiFiClientSecure

/-- `WiFiClientSecure(int sock)`. -/
def ofSocket (sock : Int) : WiFiClientSecure :=
  { sslclient := { socket := sock, handshakeTimeout := 120000 }, connected := decide (0 ≤ sock) }

/-- `WiFiClientSecure()`. -/
def new : WiFiClientSecure := ofSocket (-1)

/-- `setInsecure`: the certificates and the key are forgotten. -/
def setInsecure (c : WiFiClientSecure) : WiFiClientSecure :=
  { c with
    caCert := none
    cert := none
    privateKey := none
    pskIdent := none
    psKey := none
    useInsecure := true }

/-- `setCACert`, which takes the client out of the insecure mode. -/
def setCACert (c : WiFiClientSecure) (rootCA : Option CStr) : WiFiClientSecure :=
  { c with caCert := rootCA, useInsecure := false }

/-- `setCACertBundle`, with the global bundle it leaves: a bundle that cannot
be allocated leaves none. -/
def setCACertBundle (c : WiFiClientSecure) (allocated : Bool) :
    Option Bundle → WiFiClientSecure × Option Bundle
  | some bundle => ({ c with useCaBundle := true }, if allocated then some bundle else none)
  | none => ({ c with useCaBundle := false }, none)

/-- `setCertificate`. -/
def setCertificate (c : WiFiClientSecure) (clientCa : Option CStr) : WiFiClientSecure :=
  { c with cert := clientCa }

/-- `setPrivateKey`. -/
def setPrivateKey (c : WiFiClientSecure) (privateKey : Option CStr) : WiFiClientSecure :=
  { c with privateKey := privateKey }

/-- `setPreSharedKey`. The insecure mode stays. -/
def setPreSharedKey (c : WiFiClientSecure) (pskIdent psKey : Option CStr) : WiFiClientSecure :=
  { c with pskIdent := pskIdent, psKey := psKey }

/-- `stop`. The flag and the look-ahead are cleared only with a socket. -/
def stop (c : WiFiClientSecure) : Outcome WiFiClientSecure Unit :=
  let closed : WiFiClientSecure × List SocketCall :=
    if 0 ≤ c.sslclient.socket then
      ({ c with
          sslclient := { c.sslclient with socket := -1 }
          connected := false
          peeked := none },
        [.closed c.sslclient.socket])
    else (c, [])
  let stopped := stopSslSocket { ctx := closed.1.sslclient, calls := closed.2 }
  ⟨(), { closed.1 with sslclient := stopped.ctx }, stopped.calls⟩

/-- What every connect does once its arguments are settled. -/
def startClient (c : WiFiClientSecure) (env : ConnectEnv) (crts : Option Bundle)
    (args : SslArgs) : Outcome WiFiClientSecure Int :=
  let started := startSslClient env crts args c.sslclient
  let c := { c with sslclient := started.2.ctx }
  if started.1 < 0 then
    let stopped := stop { c with lastError := started.1 }
    ⟨0, stopped.client, started.2.calls ++ stopped.calls⟩
  else ⟨1, { c with lastError := 0, connected := true }, started.2.calls⟩

/-- The arguments of the overload with certificates. -/
def certArgs (c : WiFiClientSecure) (ip : UInt32) (port : UInt16)
    (host caCert cert privateKey : Option CStr) : SslArgs where
  ip := ip
  port := port
  hostname := host
  timeout := c.timeout
  rootCABuff := caCert
  useRootCABundle := c.useCaBundle
  cliCert := cert
  cliKey := privateKey
  pskIdent := none
  psKey := none
  insecure := c.useInsecure
  alpnProtos := c.alpnProtos

/-- The arguments of the overload with a pre-shared key. -/
def pskArgs (c : WiFiClientSecure) (ip : UInt32) (port : UInt16) (host : CStr)
    (pskIdent psKey : Option CStr) : SslArgs where
  ip := ip
  port := port
  hostname := some host
  timeout := c.timeout
  rootCABuff := none
  useRootCABundle := false
  cliCert := none
  cliKey := none
  pskIdent := pskIdent
  psKey := psKey
  insecure := c.useInsecure
  alpnProtos := c.alpnProtos

/-- `connect(IPAddress, uint16_t, host, CA_cert, cert, private_key)`, where the host is only a
name for the server. -/
def connectIpHostCert (c : WiFiClientSecure) (env : ConnectEnv) (crts : Option Bundle)
    (ip : UInt32) (port : UInt16) (host caCert cert privateKey : Option CStr) :
    Outcome WiFiClientSecure Int :=
  c.startClient env crts (c.certArgs ip port host caCert cert privateKey)

/-- `connect(const char *, uint16_t, CA_cert, cert, private_key)`. -/
def connectHostCert (c : WiFiClientSecure) (env : ConnectEnv) (crts : Option Bundle)
    (host : CStr) (port : UInt16) (caCert cert privateKey : Option CStr) :
    Outcome WiFiClientSecure Int :=
  match env.hostByName host with
  | none => ⟨0, c, []⟩
  | some ip => c.connectIpHostCert env crts ip port (some host) caCert cert privateKey

/-- `connect(const char *, uint16_t, pskIdent, psKey)`. -/
def connectHostPsk (c : WiFiClientSecure) (env : ConnectEnv) (crts : Option Bundle)
    (host : CStr) (port : UInt16) (pskIdent psKey : Option CStr) : Outcome WiFiClientSecure Int :=
  match env.hostByName host with
  | none => ⟨0, c, []⟩
  | some ip => c.startClient env crts (c.pskArgs ip port host pskIdent psKey)

/-- `_pskIdent && _psKey`. -/
def hasPsk (c : WiFiClientSecure) : Prop :=
  c.pskIdent ≠ none ∧ c.psKey ≠ none

instance (c : WiFiClientSecure) : Decidable c.hasPsk := by
  unfold hasPsk
  infer_instance

/-- `connect(const char *host, uint16_t port)`. -/
def connectHost (c : WiFiClientSecure) (env : ConnectEnv) (crts : Option Bundle)
    (host : CStr) (port : UInt16) : Outcome WiFiClientSecure Int :=
  if c.hasPsk then c.connectHostPsk env crts host port c.pskIdent c.psKey
  else c.connectHostCert env crts host port c.caCert c.cert c.privateKey

/-- `IPAddress::toString`. -/
def ipText (ip : UInt32) : CStr :=
  let octet := fun k : Nat => (Nat.repr (ip.toNat / 256 ^ k % 256)).toList
  octet 0 ++ '.' :: octet 1 ++ '.' :: octet 2 ++ '.' :: octet 3

/-- `connect(IPAddress, uint16_t, CA_cert, cert, private_key)`. -/
def connectIpCert (c : WiFiClientSecure) (env : ConnectEnv) (crts : Option Bundle)
    (ip : UInt32) (port : UInt16) (caCert cert privateKey : Option CStr) :
    Outcome WiFiClientSecure Int :=
  c.connectIpHostCert env crts ip port none caCert cert privateKey

/-- `connect(IPAddress, uint16_t, pskIdent, psKey)`. -/
def connectIpPsk (c : WiFiClientSecure) (env : ConnectEnv) (crts : Option Bundle)
    (ip : UInt32) (port : UInt16) (pskIdent psKey : Option CStr) : Outcome WiFiClientSecure Int :=
  c.connectHostPsk env crts (ipText ip) port pskIdent psKey

/-- `connect(IPAddress ip, uint16_t port)`; the overload with a pre-shared key
looks the address up as a host name. -/
def connectIp (c : WiFiClientSecure) (env : ConnectEnv) (crts : Option Bundle)
    (ip : UInt32) (port : UInt16) : Outcome WiFiClientSecure Int :=
  if c.hasPsk then c.connectIpPsk env crts ip port c.pskIdent c.psKey
  else c.connectIpCert env crts ip port c.caCert c.cert c.privateKey

/-- `write(const uint8_t *, size_t)`: the count that was taken. -/
def write (c : WiFiClientSecure) (answers : Timed Int) : Outcome WiFiClientSecure Int :=
  if c.connected = false then ⟨0, c, []⟩
  else
    let res := sendSslData answers
    let calls := [.sslWritten c.sslclient.socket]
    if res < 0 then ⟨0, c.stop.client, calls ++ c.stop.calls⟩ else ⟨res, c, calls⟩

/-- `read(uint8_t *, size_t)` into a buffer there is; the second component is
what lands in it. -/
def readBuf (c : WiFiClientSecure) (answer : SslRead) (size : Nat) :
    Outcome WiFiClientSecure (Int × List UInt8) :=
  if size = 0 then ⟨(0, []), c, []⟩
  else if c.connected = false then ⟨(-1, []), c, []⟩
  else
    let head : List UInt8 := c.peeked.toList
    let c := { c with peeked := none }
    let size := size - head.length
    if size = 0 then ⟨(1, head), c, []⟩
    else
      let res := answer.code size
      let calls := [.sslRead c.sslclient.socket (answer.bytes size)]
      if res < 0 then
        ⟨(if head = [] then res else 1, head), c.stop.client, calls ++ c.stop.calls⟩
      else ⟨(res + head.length, head ++ answer.bytes size), c, calls⟩

/-- `read()`: the one-byte buffer holds 255 before the call. -/
def read (c : WiFiClientSecure) (answer : SslRead) : Outcome WiFiClientSecure Int :=
  let out := c.readBuf answer 1
  let data : UInt8 := out.result.2.headD 255
  ⟨if out.result.1 < 0 then out.result.1 else data.toNat, out.client, out.calls⟩

/-- A turn of `timedRead`: settled by a byte. -/
def timedReadTurn (s : WiFiClientSecure × List SocketCall) (answer : SslRead) :
    (WiFiClientSecure × List SocketCall) × Option Int :=
  let out := s.1.read answer
  ((out.client, s.2 ++ out.calls), if 0 ≤ out.result then some out.result else none)

/-- The last try of a read, when its time is over. -/
def timedReadLate (s : WiFiClientSecure × List SocketCall) (answer : SslRead) :
    (WiFiClientSecure × List SocketCall) × Int :=
  let out := s.1.read answer
  ((out.client, s.2 ++ out.calls), if 0 ≤ out.result then out.result else -1)

/-- `Stream::timedRead`. -/
def timedRead (c : WiFiClientSecure) (answers : Timed SslRead) : Outcome WiFiClientSecure Int :=
  let polled := poll timedReadTurn timedReadLate answers (c, [])
  ⟨polled.2, polled.1.1, polled.1.2⟩

/-- `peek`: the byte is kept for the next read. -/
def peek (c : WiFiClientSecure) (answers : Timed SslRead) : Outcome WiFiClientSecure Int :=
  match c.peeked with
  | some b => ⟨b.toNat, c, []⟩
  | none =>
      let out := c.timedRead answers
      let peeked := if 0 ≤ out.result then some (UInt8.ofNat out.result.toNat) else none
      ⟨out.result, { out.client with peeked := peeked }, out.calls⟩

/-- What `available` finds: the bytes mbedTLS holds, whether the socket is
readable, and what reading a record then gives. -/
structure Pending where
  decoded : Nat
  readable : Bool
  read : Int
  bytesAvail : Nat

/-- `available`. A byte that was peeked at counts. -/
def available (c : WiFiClientSecure) (pending : Pending) : Outcome WiFiClientSecure Int :=
  let peeked : Int := c.peeked.toList.length
  if c.connected = false then ⟨peeked, c, []⟩
  else if 0 < pending.decoded then ⟨pending.decoded + peeked, c, []⟩
  else if 0 ≤ c.sslclient.socket ∧ pending.readable = true then
    let res := dataToRead pending.read pending.bytesAvail
    if res < 0 then ⟨if peeked = 0 then res else peeked, c.stop.client, c.stop.calls⟩
    else ⟨res + peeked, c, []⟩
  else ⟨peeked, c, []⟩

/-- `connected()`: a read of no byte, and the flag. -/
def isConnected (c : WiFiClientSecure) : Bool :=
  (c.readBuf .endOfStream 0).client.connected

/-- `stop` ends a client with a socket; without one the flag and the look-ahead
stay, and the context is zeroed either way. -/
theorem stop_client (c : WiFiClientSecure) :
    c.stop.client =
      { c with
        sslclient :=
          { socketTimeout := c.sslclient.socketTimeout
            handshakeTimeout := c.sslclient.handshakeTimeout }
        connected := if 0 ≤ c.sslclient.socket then false else c.connected
        peeked := if 0 ≤ c.sslclient.socket then none else c.peeked } := by
  unfold stop
  by_cases h : 0 ≤ c.sslclient.socket
  · simp [h, stopSslSocket]
  · simp [h, stopSslSocket]

/-- `stop` closes the socket it finds, once. -/
theorem stop_calls (c : WiFiClientSecure) :
    c.stop.calls = if 0 ≤ c.sslclient.socket then [.closed c.sslclient.socket] else [] := by
  unfold stop
  by_cases h : 0 ≤ c.sslclient.socket
  · simp [h, stopSslSocket]
  · simp [h, stopSslSocket]

end WiFiClientSecure

end ArduinoBeken.Tls
