import ArduinoBeken.Dns.Scans

/-!
# Writing a Reply

A reply is written byte by byte to the transmit buffer of the UDP object. With a buffer there
the writes are no fault, and if the bytes fit they stand in it as they were written. The two
replies are what `replyWithIP_spec` and `replyWithCustomCode_spec` say: a header that is
changed in place, the question and a record, or a header alone.

## Main definitions

* `Keeps`: What the handling of a request leaves as it is.
* `Wrote`: Bytes that were written.
* `answerBytes`, `errorBytes`: The two replies.

## Theorems

* `writeAll_wrote`, `Wrote.next`: Bytes are written, and more behind them.
* `replyWithIP_spec`, `replyWithCustomCode_spec`: What the replies hand to lwIP.
-/

namespace ArduinoBeken

namespace Dns

open CheckedBytes (Block load byte store)
open WiFi.Udp (WiFiUDP Datagram kUdpBufferSize)

/-- What the handling of a request leaves as it is. -/
structure Keeps (w w' : World) : Prop where
  configured : w'.configured = w.configured
  fault : w'.fault = w.fault
  domainName : w'.server.domainName = w.server.domainName
  resolvedIP : w'.server.resolvedIP = w.server.resolvedIP
  errorReplyCode : w'.server.errorReplyCode = w.server.errorReplyCode
  udp_server : w'.server.udp.udp_server = w.server.udp.udp_server
  tx_buffer : w.server.udp.tx_buffer.isSome = true → w'.server.udp.tx_buffer.isSome = true

theorem Keeps.refl (w : World) : Keeps w w :=
  ⟨rfl, rfl, rfl, rfl, rfl, rfl, id⟩

theorem Keeps.trans {w w' w'' : World} (h : Keeps w w') (h' : Keeps w' w'') : Keeps w w'' where
  configured := h'.configured.trans h.configured
  fault := h'.fault.trans h.fault
  domainName := h'.domainName.trans h.domainName
  resolvedIP := h'.resolvedIP.trans h.resolvedIP
  errorReplyCode := h'.errorReplyCode.trans h.errorReplyCode
  udp_server := h'.udp_server.trans h.udp_server
  tx_buffer := fun htx => h'.tx_buffer (h.tx_buffer htx)

/-- Bytes were written to the transmit buffer, behind what was there if they fit. -/
structure Wrote (w w' : World) (data : List UInt8) : Prop where
  keeps : Keeps w w'
  ttl : w'.server.ttl = w.server.ttl
  remote : w'.server.udp.remote = w.server.udp.remote
  written : ∀ buf, w.server.udp.tx_buffer = some buf → buf.length + data.length ≤ kUdpBufferSize →
    w'.server.udp.tx_buffer = some (buf ++ data) ∧ w'.handed = w.handed

theorem Wrote.nothing (w : World) : Wrote w w [] :=
  ⟨Keeps.refl w, rfl, rfl, fun buf hbuf _ => ⟨by rw [hbuf, List.append_nil], rfl⟩⟩

theorem Wrote.trans {w w' w'' : World} {data more : List UInt8} (h : Wrote w w' data)
    (h' : Wrote w' w'' more) : Wrote w w'' (data ++ more) where
  keeps := h.keeps.trans h'.keeps
  ttl := h'.ttl.trans h.ttl
  remote := h'.remote.trans h.remote
  written := by
    intro buf hbuf hfit
    rw [List.length_append] at hfit
    obtain ⟨htx, hhanded⟩ := h.written buf hbuf (by omega)
    obtain ⟨htx', hhanded'⟩ := h'.written _ htx (by rw [List.length_append]; omega)
    rw [← List.append_assoc]
    exact ⟨htx', hhanded'.trans hhanded⟩

theorem write_wrote (w : World) (b : UInt8) (htx : w.server.udp.tx_buffer.isSome = true) :
    ∃ w', w.write b = .ok w' ∧ Wrote w w' [b] := by
  obtain ⟨buf, hbuf⟩ := Option.isSome_iff_exists.1 htx
  have hwrite : w.server.udp.write b =
      { w.server.udp with
        tx_buffer := some ((if w.server.udp.isFull then [] else buf) ++ [b]) } := by
    rw [WiFiUDP.write]
    simp only [hbuf]
  refine ⟨_, by rw [World.write, hbuf], ?_⟩
  rw [hwrite]
  refine ⟨⟨rfl, rfl, rfl, rfl, rfl, rfl, fun _ => rfl⟩, rfl, rfl, ?_⟩
  intro buf' hbuf' hfit
  rw [hbuf, Option.some.injEq] at hbuf'
  subst hbuf'
  -- a full buffer would be sent and begun again
  have hroom : w.server.udp.isFull = false := by
    rw [WiFiUDP.isFull, hbuf, Option.getD_some, decide_eq_false_iff_not]
    rw [List.length_singleton] at hfit
    omega
  simp only [World.setUdp, hroom, Bool.false_eq_true, if_false, and_self]

/-- With a buffer there, bytes are written. -/
theorem writeAll_wrote (w : World) (data : List UInt8)
    (htx : w.server.udp.tx_buffer.isSome = true) :
    ∃ w', w.writeAll data = .ok w' ∧ Wrote w w' data := by
  induction data generalizing w with
  | nil => exact ⟨w, rfl, Wrote.nothing w⟩
  | cons b data ih =>
      obtain ⟨w1, hw1, h1⟩ := write_wrote w b htx
      obtain ⟨w2, hw2, h2⟩ := ih w1 (h1.keeps.tx_buffer htx)
      refine ⟨w2, ?_, h1.trans h2⟩
      rw [World.writeAll, Stages.bind_eq_ok]
      exact ⟨w1, hw1, hw2⟩

/-- More bytes are written behind those that were. -/
theorem Wrote.next {w w' : World} {data : List UInt8} (h : Wrote w w' data)
    (htx : w.server.udp.tx_buffer.isSome = true) (more : List UInt8) :
    ∃ w'', w'.writeAll more = .ok w'' ∧ Wrote w w'' (data ++ more) := by
  obtain ⟨w'', hw'', h'⟩ := writeAll_wrote w' more (h.keeps.tx_buffer htx)
  exact ⟨w'', hw'', h.trans h'⟩

/-! ### The replies -/

/-- The header of an answer. -/
def answerHeader (h : DNSHeader) : DNSHeader :=
  { h with QR := DNS_QR_RESPONSE, ANCount := h.QDCount }

/-- The header of a reply that declines. -/
def errorHeader (h : DNSHeader) (replyCode : DNSReplyCode) : DNSHeader :=
  { h with QR := DNS_QR_RESPONSE, RCode := replyCode.toNat % 16, QDCount := 0 }

/-- The record behind the question, from the pointer to its name on. -/
def recordBytes (ttl : Nat) (resolvedIP : Block 4) : List UInt8 :=
  [0xC0] ++ [12] ++ [0, 1] ++ [0, 1] ++ ByteOrder.toBytes 4 ttl ++ [0, 4] ++ resolvedIP.1

/-- What `replyWithIP` sends. -/
def answerBytes (h : DNSHeader) (q : DNSQuestion) (ttl : Nat) (resolvedIP : Block 4) :
    List UInt8 :=
  (answerHeader h).toBytes ++ q.QName.1.take q.QNameLength ++ q.QType.1 ++ q.QClass.1 ++
    recordBytes ttl resolvedIP

/-- What `replyWithCustomCode` sends. -/
def errorBytes (h : DNSHeader) (replyCode : DNSReplyCode) : List UInt8 :=
  (errorHeader h replyCode).toBytes

theorem length_toBytes (h : DNSHeader) : h.toBytes.length = 12 := by
  simp only [DNSHeader.toBytes, List.length_append, ByteOrder.length_toBytes]

theorem length_answerBytes (h : DNSHeader) (q : DNSQuestion) (ttl : Nat) (ip : Block 4)
    (hq : q.QNameLength ≤ 256) : (answerBytes h q ttl ip).length ≤ kUdpBufferSize := by
  simp only [answerBytes, recordBytes, List.length_append, length_toBytes, List.length_take,
    q.QName.2, q.QType.2, q.QClass.2, ip.2, ByteOrder.length_toBytes, List.length_cons,
    List.length_nil, kUdpBufferSize]
  omega

/-- `beginPacket` empties the buffer if there is a port to send to. -/
theorem beginPacket_spec (w : World) (a : Answers) (hbound : w.server.udp.udp_server = true)
    (htx : w.server.udp.tx_buffer.isSome = true) :
    Keeps w (w.beginPacket a) ∧ (w.beginPacket a).server.ttl = w.server.ttl ∧
      (w.beginPacket a).server.udp.remote = w.server.udp.remote ∧
      (w.beginPacket a).handed = w.handed ∧
      (w.server.udp.remote.port ≠ 0 → (w.beginPacket a).server.udp.tx_buffer = some []) := by
  have hthere : w.server.udp.tx_buffer.isNone = false := by
    rw [Option.isNone_eq_false_iff]
    exact htx
  rw [World.beginPacket, WiFiUDP.beginPacket, hthere, hbound]
  simp only [Bool.false_and, Bool.false_eq_true, if_false, if_true]
  split_ifs with hport
  · exact ⟨Keeps.refl w, rfl, rfl, rfl, fun h => absurd hport h⟩
  · exact ⟨⟨rfl, rfl, rfl, rfl, rfl, hbound.symm, fun _ => rfl⟩, rfl, rfl, rfl, fun _ => rfl⟩

theorem keeps_setHeader (w : World) (h : DNSHeader) : Keeps w (w.setHeader h) :=
  ⟨rfl, rfl, rfl, rfl, rfl, rfl, id⟩

theorem keeps_endPacket (w : World) : Keeps w w.endPacket :=
  ⟨rfl, rfl, rfl, rfl, rfl, rfl, id⟩

/-- What was written to an empty buffer is what `endPacket` hands over. -/
theorem handed_of_wrote (w w' : World) (data : List UInt8) (h : Wrote w w' data)
    (hempty : w.server.udp.tx_buffer = some []) (hfit : data.length ≤ kUdpBufferSize) :
    w'.endPacket.handed = w.handed ++ [⟨w.server.udp.remote, data⟩] := by
  obtain ⟨htx, hhanded⟩ := h.written [] hempty (by rw [List.length_nil, Nat.zero_add]; exact hfit)
  rw [World.endPacket, WiFiUDP.datagram, htx, hhanded, h.remote]
  rfl

theorem toBytes_htons : ByteOrder.toBytes 2 (htons 1) = [0, 1] ∧
    ByteOrder.toBytes 2 (htons 4) = [0, 4] := by decide

/-- The answer goes to where the request came from. -/
theorem replyWithIP_spec (w : World) (h : DNSHeader) (q : DNSQuestion) (a : Answers)
    (hbound : w.server.udp.udp_server = true) (htx : w.server.udp.tx_buffer.isSome = true)
    (hq : q.QNameLength ≤ 256) :
    ∃ w', w.replyWithIP h q a = .ok w' ∧ Keeps w w' ∧
      (w.server.udp.remote.port ≠ 0 → w'.handed = w.handed ++
        [⟨w.server.udp.remote, answerBytes h q w.server.ttl w.server.resolvedIP⟩]) := by
  obtain ⟨hkeeps, httl, hremote, hhanded, hempty⟩ := beginPacket_spec w a hbound htx
  have htx0 := hkeeps.tx_buffer htx
  -- one write after the other, all into the buffer that `beginPacket` left
  obtain ⟨QName, hload, hname⟩ := CheckedBytes.exists_load q.QName.1 0 q.QNameLength
    (by rw [q.QName.2]; omega)
  obtain ⟨w1, h1, c1⟩ := (Wrote.nothing ((w.beginPacket a).setHeader (answerHeader h))).next htx0
    (answerHeader h).toBytes
  obtain ⟨w2, h2, c2⟩ := c1.next htx0 QName.1
  obtain ⟨w3, h3, c3⟩ := c2.next htx0 q.QType.1
  obtain ⟨w4, h4, c4⟩ := c3.next htx0 q.QClass.1
  obtain ⟨w5, h5, c5⟩ := c4.next htx0 [0xC0]
  obtain ⟨w6, h6, c6⟩ := c5.next htx0 [UInt8.ofNat DNS_OFFSET_DOMAIN_NAME]
  obtain ⟨w7, h7, c7⟩ := c6.next htx0 (ByteOrder.toBytes 2 (htons DNS_TYPE_A))
  obtain ⟨w8, h8, c8⟩ := c7.next htx0 (ByteOrder.toBytes 2 (htons DNS_CLASS_IN))
  obtain ⟨w9, h9, c9⟩ := c8.next htx0 (ByteOrder.toBytes 4 w8.server.ttl)
  obtain ⟨w10, h10, c10⟩ := c9.next htx0 (ByteOrder.toBytes 2 (htons DNS_RDLENGTH_IPV4))
  obtain ⟨w11, h11, c11⟩ := c10.next htx0 w10.server.resolvedIP.1
  -- the ttl and the address are read between the writes, which keep them
  have hsetup := hkeeps.trans (keeps_setHeader _ (answerHeader h))
  have httl8 : w8.server.ttl = w.server.ttl := c8.ttl.trans httl
  have hip10 : w10.server.resolvedIP = w.server.resolvedIP :=
    c10.keeps.resolvedIP.trans hsetup.resolvedIP
  refine ⟨w11.endPacket, ?_, (hsetup.trans c11.keeps).trans (keeps_endPacket w11), ?_⟩
  · simp only [World.replyWithIP, Stages.bind_eq_ok]
    exact ⟨w1, h1, QName, hload, w2, h2, w3, h3, w4, h4, w5, h5, w6, h6, w7, h7, w8, h8, w9, h9,
      w10, h10, w11, h11, rfl⟩
  · intro hport
    have hbytes := length_answerBytes h q w.server.ttl w.server.resolvedIP hq
    have hwrote : Wrote ((w.beginPacket a).setHeader (answerHeader h)) w11
        (answerBytes h q w.server.ttl w.server.resolvedIP) := by
      have htwelve : UInt8.ofNat DNS_OFFSET_DOMAIN_NAME = 12 := rfl
      rw [hname, List.drop_zero, httl8, hip10, htwelve, DNS_TYPE_A, DNS_CLASS_IN,
        DNS_RDLENGTH_IPV4, toBytes_htons.1, toBytes_htons.2] at c11
      simpa only [answerBytes, recordBytes, List.append_assoc, List.nil_append] using c11
    rw [handed_of_wrote _ _ _ hwrote (hempty hport) hbytes]
    change (w.beginPacket a).handed ++ [⟨(w.beginPacket a).server.udp.remote, _⟩] = _
    rw [hhanded, hremote]

/-- A request that is not resolved is answered with a header. -/
theorem replyWithCustomCode_spec (w : World) (h : DNSHeader) (a : Answers)
    (hbound : w.server.udp.udp_server = true) (htx : w.server.udp.tx_buffer.isSome = true) :
    ∃ w', w.replyWithCustomCode h a = .ok w' ∧ Keeps w w' ∧
      (w.server.udp.remote.port ≠ 0 → w'.handed = w.handed ++
        [⟨w.server.udp.remote, errorBytes h w.server.errorReplyCode⟩]) := by
  obtain ⟨hkeeps, -, hremote, hhanded, hempty⟩ := beginPacket_spec
    (w.setHeader (errorHeader h w.server.errorReplyCode)) a hbound htx
  obtain ⟨w1, h1, c1⟩ := writeAll_wrote _ (errorHeader h w.server.errorReplyCode).toBytes
    (hkeeps.tx_buffer htx)
  have hsetup := (keeps_setHeader w (errorHeader h w.server.errorReplyCode)).trans hkeeps
  refine ⟨w1.endPacket, ?_, (hsetup.trans c1.keeps).trans (keeps_endPacket w1), ?_⟩
  · simp only [World.replyWithCustomCode, Stages.bind_eq_ok]
    exact ⟨w1, h1, rfl⟩
  · intro hport
    rw [handed_of_wrote _ _ _ c1 (hempty hport) (by rw [length_toBytes]; decide), hhanded, hremote]
    rfl

end Dns

end ArduinoBeken
