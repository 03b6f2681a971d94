import ArduinoBeken.WiFi.UdpObject

/-!
# An Endpoint and Back

The address of an endpoint goes into the socket layer as it stands, and the UDP object takes
it out so. The client takes it out through `PP_NTOHL`, which reverses its octets. The port is
swapped both ways on both paths. What is reported of a peer is therefore the peer in all cases
with UDP, and with TCP where the address reads the same both ways.

## Main definitions

* `Sender`: A UDP object that has just received a datagram from the endpoint.
* `RoundTrip`: The law, for a connected client and every UDP object.

## Theorems

* `remote_of_received`: What a UDP object reports.
* `addressed_to_sender`: Where a reply goes.
* `endpoint_round_trip_iff`: When the law holds.
-/

namespace ArduinoBeken

namespace WiFi.UdpObject

open Net WiFi.StaticIp ByteOrder

variable {σ : Type} (lwip : Lwip σ) (m : Conversions)

/-- The world is one in which `parsePacket` has just taken a datagram that came from the
    endpoint. -/
def Sender (e : Endpoint) (w : World) : Prop :=
  ∃ (w₀ : World) (addr : SockaddrIn) (datagram : List UInt8),
    addr.Names e ∧ w₀.udp.rx_buffer = none ∧ w₀.udp.udp_server.isSome ∧
      w = (w₀.parsePacket m true (some (addr, datagram))).1

/-- What the client reports when it is connected is the endpoint, what a UDP object reports of
    a datagram is its sender, and a packet begun to that goes there. -/
structure RoundTrip (c : WiFiClient) (s : σ) (timeout_ms : Int) (e : Endpoint) : Prop where
  tcp : let r := (c.connectTo lwip m s e.ip e.port timeout_ms).2
    r.1.remoteIP lwip m r.2 = e.ip ∧ r.1.remotePort lwip m r.2 = e.port
  udp : ∀ w, Sender m e w → w.remoteIP = e.ip ∧ w.remotePort = e.port
  reply : ∀ w, Sender m e w → ∀ (w' : World) (alloc socket : Bool) (data : List UInt8),
    let b := w'.beginTo (.address w.remoteIP w.remotePort) alloc socket
    b.2 = true →
    ∃ addr bytes, ((data.foldl (World.write m) b.1).endPacket m).calls.getLast? =
      some (.sendto addr bytes) ∧ addr.Names e

theorem remote_of_received (hm : m.LittleEndian) (e : Endpoint) (w : World)
    (h : Sender m e w) : w.remoteIP = e.ip ∧ w.remotePort = e.port := by
  rcases h with ⟨w₀, addr, datagram, hnames, hrx, hfd, rfl⟩
  rcases Option.isSome_iff_exists.1 hfd with ⟨fd, hfd⟩
  simp only [World.parsePacket, hrx, hfd, Option.isSome_none, Bool.false_eq_true, if_false,
    Bool.not_true, Option.bind_some, World.remoteIP, World.remotePort]
  exact ⟨ofUInt32_of_bytes _ _ _ _ _ hnames.octets, ntohs_of_bytes hm _ _ hnames.port⟩

/-- The other end of a packet stays while it is written. -/
theorem write_recipient (w : World) (data : List UInt8) :
    World.recipient m (data.foldl (World.write m) w).udp = World.recipient m w.udp := by
  have hone : ∀ (w : World) (b : UInt8),
      World.recipient m (w.write m b).udp = World.recipient m w.udp := by
    intro w b
    have hstore : ∀ (w : World) (p : Option Nat) (i : Nat), (w.store p i b).udp = w.udp := by
      intro w p i
      cases p <;> (unfold World.store World.touch; simp only; split_ifs <;> rfl)
    unfold World.write World.recipient
    simp only [hstore]
    split_ifs <;> rfl
  induction data generalizing w with
  | nil => rfl
  | cons b data ih => rw [List.foldl_cons, ih, hone]

theorem beginPacket_recipient (w : World) (alloc socket : Bool) :
    World.recipient m (w.beginPacket alloc socket).1.udp = World.recipient m w.udp := by
  unfold World.beginPacket World.mallocTx World.openSocket
  simp only
  split_ifs <;> rfl

/-- A packet begun to an endpoint is handed over with the address of that endpoint. -/
theorem addressed_to_sender (hm : m.LittleEndian) (e : Endpoint) (w : World)
    (alloc socket : Bool) (data : List UInt8) :
    ∃ addr bytes, ((data.foldl (World.write m)
      (w.beginTo (.address e.ip e.port) alloc socket).1).endPacket m).calls.getLast? =
        some (.sendto addr bytes) ∧ addr.Names e := by
  refine ⟨_, _, List.getLast?_concat, ?_⟩
  have hkeep : World.recipient m (data.foldl (World.write m)
      (w.beginTo (.address e.ip e.port) alloc socket).1).udp =
        WiFiClient.sockaddr m e.ip e.port := by
    rw [write_recipient, World.beginTo, beginPacket_recipient]
    rfl
  rw [hkeep]
  exact names_sockaddr hm e

/-- With a connected client the law holds of the endpoints whose address reads the same both
    ways, and of no others. -/
theorem endpoint_round_trip_iff (hlwip : lwip.Documented) (hm : m.LittleEndian)
    (c : WiFiClient) (s : σ) (timeout_ms : Int) (e : Endpoint)
    (hok : (c.connectTo lwip m s e.ip e.port timeout_ms).1 = 1) :
    RoundTrip lwip m c s timeout_ms e ↔ e.a = e.d ∧ e.b = e.c := by
  have hremote := remote_of_connected hlwip hm c s e timeout_ms hok
  have hreversed : IPAddress.v4 e.d e.c e.b e.a = e.ip ↔ e.a = e.d ∧ e.b = e.c := by
    rw [Endpoint.ip, IPAddress.v4.injEq]
    constructor
    · rintro ⟨hda, hcb, -, -⟩
      exact ⟨hda.symm, hcb.symm⟩
    · rintro ⟨had, hbc⟩
      exact ⟨had.symm, hbc.symm, hbc, had⟩
  constructor
  · intro h
    exact hreversed.1 (hremote.1.symm.trans h.tcp.1)
  · intro h
    refine ⟨⟨hremote.1.trans (hreversed.2 h), hremote.2⟩, remote_of_received m hm e, ?_⟩
    intro w hw w' alloc socket data b _
    rcases remote_of_received m hm e w hw with ⟨hip, hport⟩
    simp only [b, hip, hport]
    exact addressed_to_sender m hm e w' alloc socket data

/-- A socket layer with one socket, whose peer is what it was last connected to. -/
def oneSocket : Lwip (Option SockaddrIn) where
  socket _ := (0, none)
  setsockopt s _ _ _ := (0, s)
  connect _ _ addr := (0, some addr)
  close _ _ := none
  getpeername s _ := s

theorem oneSocket_documented : oneSocket.Documented :=
  ⟨fun _ _ _ _ => rfl, fun _ _ _ _ => rfl⟩

/-- 192.168.1.10, port 80. -/
def router : Endpoint := ⟨192, 168, 1, 10, 80⟩

/-- 10.0.0.10, port 80, reads the same both ways. -/
def mirrored : Endpoint := ⟨10, 0, 0, 10, 80⟩

theorem endpoint_round_trip_mirrored : RoundTrip oneSocket .swapping {} none 3000 mirrored :=
  (endpoint_round_trip_iff oneSocket .swapping oneSocket_documented
    Conversions.littleEndian_swapping {} none 3000 mirrored (by decide)).2 ⟨rfl, rfl⟩

/-- The client connected to 192.168.1.10 reports 10.1.168.192. -/
theorem not_round_trip_router : ¬RoundTrip oneSocket .swapping {} none 3000 router := by
  intro h
  exact absurd h.tcp.1 (by decide)

end WiFi.UdpObject

end ArduinoBeken
