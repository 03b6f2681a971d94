import ArduinoBeken.Library.ByteOrder
import ArduinoBeken.Net.WiFiClient
import ArduinoBeken.WiFi.StaticIp

/-!
# Addresses of the Socket Layer

An `IPAddress` holds its octets in the order in which they are written, and the target reads
four bytes with the least significant first. A `sockaddr_in` has the octets of the address in
the same order in its memory, and the port with its most significant byte first, so an address
is copied between the two as it stands and a port has its bytes swapped.

The conversions and the socket layer are lwIP's, and parameters here. What the code relies on
are two hypotheses: on this target a conversion swaps the bytes (`LittleEndian`), and the peer
of a connected socket is the one it was connected to (`Documented`).

## Main definitions

* `IPAddress.toUInt32`, `IPAddress.ofUInt32`: The conversions of `IPAddress`.
* `SockaddrIn`, `Endpoint`, `SockaddrIn.Names`: Addresses, and the endpoint that one names.
* `Conversions`, `Lwip`: What lwIP has.
* `WiFiClient.connectTo`, `WiFiClient.remoteIP`, `WiFiClient.remotePort`: The client.

## Theorems

* `toBytes_toUInt32`, `ofUInt32_toUInt32`: An address keeps its octets.
* `connectTo_agrees`: The client that is modelled without addresses.
* `names_sockaddr`: What the client connects to names the endpoint.
* `remote_of_connected`: What a connected client reports.
-/

namespace ArduinoBeken

namespace Net

open ByteOrder WiFi.StaticIp

/-! ### Addresses -/

/-- `operator uint32_t`: the four octets, read as an integer in memory. -/
def IPAddress.toUInt32 : IPAddress → UInt32
  | .v4 a b c d => UInt32.ofNat (ofBytes [a, b, c, d])
  | .v6 _ => 0

/-- `IPAddress(uint32_t)`: the integer, stored where the octets are. -/
def IPAddress.ofUInt32 (address : UInt32) : IPAddress :=
  .v4 (UInt8.ofNat address.toNat) (UInt8.ofNat (address.toNat / 256))
    (UInt8.ofNat (address.toNat / 256 / 256)) (UInt8.ofNat (address.toNat / 256 / 256 / 256))

/-- `sockaddr_in`, with its fields as the integers that the target reads in memory. -/
structure SockaddrIn where
  sin_port : UInt16
  s_addr : UInt32
deriving DecidableEq, Repr

/-- An IPv4 address and a port. -/
structure Endpoint where
  (a b c d : UInt8)
  port : UInt16
deriving DecidableEq, Repr

/-- The address of an endpoint. -/
def Endpoint.ip (e : Endpoint) : IPAddress := .v4 e.a e.b e.c e.d

/-- The memory of the structure is the endpoint in network order. -/
structure SockaddrIn.Names (addr : SockaddrIn) (e : Endpoint) : Prop where
  octets : toBytes 4 addr.s_addr.toNat = [e.a, e.b, e.c, e.d]
  port : toBytes 2 addr.sin_port.toNat = (toBytes 2 e.port.toNat).reverse

/-- The conversions of lwIP between the order of the host and that of the network. -/
structure Conversions where
  PP_HTONS : UInt16 → UInt16
  PP_NTOHS : UInt16 → UInt16
  PP_NTOHL : UInt32 → UInt32

/-- On a target with the least significant byte first they swap the bytes. -/
structure Conversions.LittleEndian (m : Conversions) : Prop where
  htons : ∀ x, (m.PP_HTONS x).toNat = swap 2 x.toNat
  ntohs : ∀ x, (m.PP_NTOHS x).toNat = swap 2 x.toNat
  ntohl : ∀ x, (m.PP_NTOHL x).toNat = swap 4 x.toNat

/-- Conversions that swap the bytes. -/
def Conversions.swapping : Conversions where
  PP_HTONS x := UInt16.ofNat (swap 2 x.toNat)
  PP_NTOHS x := UInt16.ofNat (swap 2 x.toNat)
  PP_NTOHL x := UInt32.ofNat (swap 4 x.toNat)

theorem Conversions.littleEndian_swapping : Conversions.swapping.LittleEndian where
  htons x := Nat.mod_eq_of_lt (swap_lt 2 x.toNat)
  ntohs x := Nat.mod_eq_of_lt (swap_lt 2 x.toNat)
  ntohl x := Nat.mod_eq_of_lt (swap_lt 4 x.toNat)

/-- The options that the client sets. -/
inductive SockOpt where
  | SO_SNDTIMEO
  | SO_RCVTIMEO
deriving DecidableEq, Repr

/-- The calls of the socket layer that a client makes on its way to a peer, with what they
return. The state is the layer's own. -/
structure Lwip (σ : Type) where
  socket : σ → Int × σ
  setsockopt : σ → Int → SockOpt → Int → Int × σ
  connect : σ → Int → SockaddrIn → Int × σ
  close : σ → Int → σ
  getpeername : σ → Int → Option SockaddrIn

/-- The peer of a connected socket is the one it was connected to, whatever its timeouts. -/
structure Lwip.Documented {σ : Type} (lwip : Lwip σ) : Prop where
  connected : ∀ s fd addr, (lwip.connect s fd addr).1 = 0 →
    lwip.getpeername (lwip.connect s fd addr).2 fd = some addr
  timeouts : ∀ s fd opt ms,
    lwip.getpeername (lwip.setsockopt s fd opt ms).2 fd = lwip.getpeername s fd

/-! ### The client -/

section Client

variable {σ : Type} (lwip : Lwip σ) (m : Conversions)

/-- The timeouts are set, and the socket is connected. -/
def connectSocket (s : σ) (fd : Int) (addr : SockaddrIn) (timeout_ms : Int) : Bool × σ :=
  let s := (lwip.setsockopt s fd .SO_SNDTIMEO timeout_ms).2
  let s := (lwip.setsockopt s fd .SO_RCVTIMEO timeout_ms).2
  let r := lwip.connect s fd addr
  (decide (r.1 = 0), r.2)

namespace WiFiClient

/-- `stop()`, with the socket layer. -/
def stopOn (c : WiFiClient) (s : σ) : WiFiClient × σ :=
  ({ c with fd := -1, connected := false }, if 0 ≤ c.fd then lwip.close s c.fd else s)

/-- `applyTimeout`, whose result its caller does not look at. -/
def applyTimeout (c : WiFiClient) (s : σ) (timeout_ms : Int) : σ :=
  if c.fd < 0 then s
  else
    let r := lwip.setsockopt s c.fd .SO_RCVTIMEO timeout_ms
    if r.1 ≠ 0 then r.2 else (lwip.setsockopt r.2 c.fd .SO_SNDTIMEO timeout_ms).2

/-- What the client fills in for the socket layer. -/
def sockaddr (ip : IPAddress) (port : UInt16) : SockaddrIn where
  sin_port := m.PP_HTONS port
  s_addr := IPAddress.toUInt32 ip

/-- `connect(IPAddress, uint16_t, int32_t)`. -/
def connectTo (c : WiFiClient) (s : σ) (ip : IPAddress) (port : UInt16) (timeout_ms : Int) :
    Int × WiFiClient × σ :=
  let stopped := c.stopOn lwip s
  let opened := lwip.socket stopped.2
  let c : WiFiClient := { stopped.1 with fd := opened.1 }
  if c.fd < 0 then (0, c, opened.2)
  else
    let r := connectSocket lwip opened.2 c.fd (sockaddr m ip port) timeout_ms
    if !r.1 then (0, c.stopOn lwip r.2)
    else (1, { c with connected := true }, c.applyTimeout lwip r.2 timeout_ms)

/-- `fillEndpoint` for the peer. -/
def fillEndpoint (s : σ) (fd : Int) : Option (IPAddress × UInt16) :=
  (lwip.getpeername s fd).map fun addr =>
    (IPAddress.ofUInt32 (m.PP_NTOHL addr.s_addr), m.PP_NTOHS addr.sin_port)

/-- `remoteIP`, by a question to the network. -/
def remoteIP (c : WiFiClient) (s : σ) : IPAddress :=
  if 0 ≤ c.fd then ((fillEndpoint lwip m s c.fd).map Prod.fst).getD .zero else .zero

/-- `remotePort`, by a question to the network. -/
def remotePort (c : WiFiClient) (s : σ) : UInt16 :=
  if 0 ≤ c.fd then ((fillEndpoint lwip m s c.fd).map Prod.snd).getD 0 else 0

end WiFiClient

end Client

/-! ### Octets and bytes -/

theorem toNat_toUInt32 (a b c d : UInt8) :
    (IPAddress.toUInt32 (.v4 a b c d)).toNat = ofBytes [a, b, c, d] := by
  have hlt := ofBytes_lt [a, b, c, d]
  simp only [List.length_cons, List.length_nil] at hlt
  rw [IPAddress.toUInt32, UInt32.toNat_ofNat']
  exact Nat.mod_eq_of_lt hlt

/-- The octets are the memory of the integer. -/
theorem toBytes_toUInt32 (a b c d : UInt8) :
    toBytes 4 (IPAddress.toUInt32 (.v4 a b c d)).toNat = [a, b, c, d] := by
  rw [toNat_toUInt32]
  exact toBytes_ofBytes [a, b, c, d]

theorem ofUInt32_of_bytes (x : UInt32) (a b c d : UInt8)
    (h : toBytes 4 x.toNat = [a, b, c, d]) : IPAddress.ofUInt32 x = .v4 a b c d := by
  simp only [toBytes, List.cons.injEq, and_true] at h
  rcases h with ⟨ha, hb, hc, hd⟩
  rw [IPAddress.ofUInt32, ha, hb, hc, hd]

theorem ofUInt32_toUInt32 (a b c d : UInt8) :
    IPAddress.ofUInt32 (IPAddress.toUInt32 (.v4 a b c d)) = .v4 a b c d :=
  ofUInt32_of_bytes _ a b c d (toBytes_toUInt32 a b c d)

section Swaps

variable {m : Conversions} (hm : m.LittleEndian)

include hm

/-- An address whose bytes are swapped has its octets the other way round. -/
theorem ofUInt32_ntohl (x : UInt32) (a b c d : UInt8) (h : toBytes 4 x.toNat = [a, b, c, d]) :
    IPAddress.ofUInt32 (m.PP_NTOHL x) = .v4 d c b a := by
  refine ofUInt32_of_bytes _ d c b a ?_
  rw [hm.ntohl, toBytes_swap, h]
  rfl

theorem ntohs_of_bytes (x port : UInt16)
    (h : toBytes 2 x.toNat = (toBytes 2 port.toNat).reverse) : m.PP_NTOHS x = port := by
  have hport : port.toNat < 256 ^ 2 := port.toNat_lt
  apply UInt16.toNat_inj.1
  rw [hm.ntohs, swap, h, List.reverse_reverse, ofBytes_toBytes 2 _ hport]

theorem toBytes_htons (port : UInt16) :
    toBytes 2 (m.PP_HTONS port).toNat = (toBytes 2 port.toNat).reverse := by
  rw [hm.htons, toBytes_swap]

/-- What the client connects to names the endpoint. -/
theorem names_sockaddr (e : Endpoint) : (WiFiClient.sockaddr m e.ip e.port).Names e where
  octets := toBytes_toUInt32 e.a e.b e.c e.d
  port := toBytes_htons hm e.port

end Swaps

/-! ### What a connected client reports -/

section Reports

variable {σ : Type} (lwip : Lwip σ) (m : Conversions)

theorem stop_of_fd (c : WiFiClient) (h : 0 ≤ c.fd) :
    c.stop = ⟨(), { c with fd := -1, connected := false }, [.closed c.fd]⟩ :=
  if_pos h

/-- What the socket layer answers to the connect. -/
def tcpAnswers (c : WiFiClient) (s : σ) (ip : IPAddress) (port : UInt16) (timeout_ms : Int) :
    TcpAnswers where
  hostByName := none
  lwipSocket := (lwip.socket (c.stopOn lwip s).2).1
  lwipConnect :=
    let opened := lwip.socket (c.stopOn lwip s).2
    if (connectSocket lwip opened.2 opened.1 (WiFiClient.sockaddr m ip port) timeout_ms).1 then 0
    else -1

/-- The client that is modelled without addresses returns the same and is the same. -/
theorem connectTo_agrees (c : WiFiClient) (s : σ) (ip : IPAddress) (port : UInt16)
    (timeout_ms : Int) :
    let r := c.connectTo lwip m s ip port timeout_ms
    let o := c.connectIp (tcpAnswers lwip m c s ip port timeout_ms) (IPAddress.toUInt32 ip) port
    o.result = r.1 ∧ o.client.fd = r.2.1.fd ∧ o.client.connected = r.2.1.connected := by
  have hconn : c.stop.client.connected = false := by
    unfold WiFiClient.stop
    split_ifs <;> rfl
  simp only [WiFiClient.connectTo, WiFiClient.connectIp, tcpAnswers]
  by_cases hneg : (lwip.socket (c.stopOn lwip s).2).1 < 0
  · simp only [hneg, if_true]
    exact ⟨trivial, trivial, hconn⟩
  · simp only [hneg, if_false]
    by_cases hok : (connectSocket lwip (lwip.socket (c.stopOn lwip s).2).2
        (lwip.socket (c.stopOn lwip s).2).1 (WiFiClient.sockaddr m ip port) timeout_ms).1 = true
    · simp only [hok, if_true, ne_eq, not_true_eq_false, if_false, Bool.not_true,
        Bool.false_eq_true, and_self]
    · rw [Bool.not_eq_true] at hok
      simp only [hok, Bool.false_eq_true, if_false, Bool.not_false, if_true, ne_eq,
        Int.reduceNeg, Int.reduceEq, not_false_eq_true]
      rw [stop_of_fd _ (Int.not_lt.1 hneg)]
      exact ⟨trivial, rfl, rfl⟩

variable {lwip m}

/-- A connect that returns 1 leaves a socket whose peer is what it was connected to. -/
theorem peer_of_connected (h : lwip.Documented) (c : WiFiClient) (s : σ) (ip : IPAddress)
    (port : UInt16) (timeout_ms : Int) (hok : (c.connectTo lwip m s ip port timeout_ms).1 = 1) :
    let r := (c.connectTo lwip m s ip port timeout_ms).2
    0 ≤ r.1.fd ∧ lwip.getpeername r.2 r.1.fd = some (WiFiClient.sockaddr m ip port) := by
  simp only [WiFiClient.connectTo] at hok ⊢
  split_ifs at hok ⊢ with hneg hfail
  · exact absurd hok.symm Int.one_ne_zero
  · exact absurd hok.symm Int.one_ne_zero
  · rw [Bool.not_eq_true, Bool.not_eq_false'] at hfail
    have hconnected := h.connected _ _ _ (of_decide_eq_true hfail)
    refine ⟨Int.not_lt.1 hneg, ?_⟩
    -- The timeouts that are set behind the connect leave the peer alone.
    unfold WiFiClient.applyTimeout
    simp only [hneg, if_false]
    split_ifs
    · rw [h.timeouts, connectSocket, hconnected]
    · rw [h.timeouts, h.timeouts, connectSocket, hconnected]

/-- A connected client reports the octets the other way round, and the port. -/
theorem remote_of_connected (h : lwip.Documented) (hm : m.LittleEndian) (c : WiFiClient)
    (s : σ) (e : Endpoint) (timeout_ms : Int)
    (hok : (c.connectTo lwip m s e.ip e.port timeout_ms).1 = 1) :
    let r := (c.connectTo lwip m s e.ip e.port timeout_ms).2
    r.1.remoteIP lwip m r.2 = .v4 e.d e.c e.b e.a ∧ r.1.remotePort lwip m r.2 = e.port := by
  rcases peer_of_connected h c s e.ip e.port timeout_ms hok with ⟨hfd, hpeer⟩
  have hnames := names_sockaddr hm e
  simp only [WiFiClient.remoteIP, WiFiClient.remotePort, WiFiClient.fillEndpoint, hfd, if_true,
    hpeer, Option.map_some, Option.getD_some]
  exact ⟨ofUInt32_ntohl hm _ _ _ _ _ hnames.octets, ntohs_of_bytes hm _ _ hnames.port⟩

end Reports

end Net

end ArduinoBeken
