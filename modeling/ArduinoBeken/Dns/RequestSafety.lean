import ArduinoBeken.Dns.ReplyWrites
import ArduinoBeken.Library.Run

/-!
# Which Packets Are Handled Safely

`processNextRequest` trusts the packet: it copies a header from it however short it is, and
where the header announces one question it follows the lengths of the labels without a look at
the end of the packet or of its own buffer. So a call is safe exactly when the packet it takes
is harmless: no shorter than a header, and if it announces one question and nothing else, the
lengths lead to a zero within 256 bytes, and type and class follow inside the packet. What a
label length is worth, a pointer included, makes no difference.

A harmless packet is handled without a fault in every state that calls lead to, because what is
written to lives as long as the socket does (`Sound`).

## Main definitions

* `received`: The packet that a call takes from the socket.
* `Harmless`: What a packet has to be.
* `Safe`, `Takes`: The law and its condition.

## Theorems

* `handle_spec`, `handle_harmless`: What is done with a harmless packet, and that any other is
  a fault.
* `requests_safe_iff`: The law along a run.
-/

namespace ArduinoBeken

namespace Dns

open CheckedBytes (Block load byte)
open DnsMessage (word walkLength)
open EventRun (Always)
open WiFi.StaticIp (IPAddress)
open WiFi.Udp (WiFiUDP Datagram kUdpBufferSize)

/-! ### The packet -/

/-- The header announces one question and nothing else. -/
def OneQuestion (packet : List UInt8) : Prop :=
  (packet.drop 4).take 8 = [0, 1, 0, 0, 0, 0, 0, 0]

/-- A packet that is handled without a fault. -/
def Harmless (packet : List UInt8) : Prop :=
  12 ≤ packet.length ∧
    (OneQuestion packet →
      ∃ n, walkLength (packet.drop 12) = some n ∧ n ≤ 256 ∧ 12 + n + 4 ≤ packet.length)

theorem exists_header (packet : List UInt8) (h : 12 ≤ packet.length) :
    ∃ i1 i0 f1 f0 qd1 qd0 an1 an0 ns1 ns0 ar1 ar0 rest, packet =
      i1 :: i0 :: f1 :: f0 :: qd1 :: qd0 :: an1 :: an0 :: ns1 :: ns0 :: ar1 :: ar0 :: rest := by
  match packet, h with
  | i1 :: i0 :: f1 :: f0 :: qd1 :: qd0 :: an1 :: an0 :: ns1 :: ns0 :: ar1 :: ar0 :: rest, _ =>
    exact ⟨i1, i0, f1, f0, qd1, qd0, an1, an0, ns1, ns0, ar1, ar0, rest, rfl⟩

theorem ntohs_ofBytes (hi lo : UInt8) : ntohs (ByteOrder.ofBytes [hi, lo]) = word hi lo := by
  have hbytes := ByteOrder.toBytes_ofBytes [hi, lo]
  rw [ntohs, ByteOrder.swap, show 2 = [hi, lo].length from rfl, hbytes, word]
  simp only [List.reverse_cons, List.reverse_nil, List.nil_append, List.singleton_append,
    ByteOrder.ofBytes]
  omega

theorem ofBytes_eq_zero (hi lo : UInt8) : ByteOrder.ofBytes [hi, lo] = 0 ↔ hi = 0 ∧ lo = 0 := by
  constructor
  · intro h
    simp only [ByteOrder.ofBytes] at h
    exact ⟨UInt8.toNat_inj.1 (by change hi.toNat = 0; omega),
      UInt8.toNat_inj.1 (by change lo.toNat = 0; omega)⟩
  · rintro ⟨rfl, rfl⟩
    rfl

/-- The code looks at the counts of the header. -/
theorem oneQuestion_iff (packet : List UInt8) (h : 12 ≤ packet.length) :
    requestIncludesOnlyOneQuestion (DNSHeader.ofBytes (packet.take 12)) = true ↔
      OneQuestion packet := by
  obtain ⟨i1, i0, f1, f0, qd1, qd0, an1, an0, ns1, ns0, ar1, ar0, rest, rfl⟩ :=
    exists_header packet h
  have hone : word qd1 qd0 = 1 ↔ qd1 = 0 ∧ qd0 = 1 := by
    refine ⟨DnsMessage.word_eq_one qd1 qd0, ?_⟩
    rintro ⟨rfl, rfl⟩
    rfl
  have hcounts : requestIncludesOnlyOneQuestion (DNSHeader.ofBytes
      [i1, i0, f1, f0, qd1, qd0, an1, an0, ns1, ns0, ar1, ar0]) =
      (ntohs (ByteOrder.ofBytes [qd1, qd0]) == 1 && ByteOrder.ofBytes [an1, an0] == 0 &&
        ByteOrder.ofBytes [ns1, ns0] == 0 && ByteOrder.ofBytes [ar1, ar0] == 0) := rfl
  change requestIncludesOnlyOneQuestion (DNSHeader.ofBytes
    [i1, i0, f1, f0, qd1, qd0, an1, an0, ns1, ns0, ar1, ar0]) = true ↔
    [qd1, qd0, an1, an0, ns1, ns0, ar1, ar0] = [0, 1, 0, 0, 0, 0, 0, 0]
  -- the counts are compared in both byte orders, which agree on zero
  rw [hcounts, ntohs_ofBytes]
  simp only [Bool.and_eq_true, beq_iff_eq, hone, ofBytes_eq_zero, List.cons.injEq, and_true,
    and_assoc]

/-! ### Handling a packet -/

/-- The condition for an answer is evaluated without a fault, if the lengths of the question
    lead to a zero. -/
theorem resolves_ok (w : World) (h : DNSHeader) (buffer : List UInt8)
    (hbuffer : w.server.buffer = some buffer)
    (hwalk : requestIncludesOnlyOneQuestion h = true →
      ∃ n, walkLength (buffer.drop 12) = some n) :
    ∃ b, w.resolves h = .ok b ∧ (b = true → requestIncludesOnlyOneQuestion h = true) := by
  rw [World.resolves]
  split_ifs with hquery hstar
  · exact ⟨true, rfl, fun _ => hquery.2.2⟩
  · obtain ⟨n, hn⟩ := hwalk hquery.2.2
    -- the second scan begins where the first one did
    have hname : ∃ t, getDomainNameWithoutWwwPrefix w.server.buffer = .ok t := by
      rw [hbuffer, getDomainNameWithoutWwwPrefix]
      cases hget : buffer[12]? with
      | none =>
          rw [DnsMessage.walkLength_drop_none _ _ hget] at hn
          cases hn
      | some first =>
          have hbyte : byte buffer DNS_OFFSET_DOMAIN_NAME = .ok first :=
            (CheckedBytes.byte_eq_ok _ _ _).2 hget
          simp only [Stages.bind_eq_ok]
          by_cases hzero : first = 0
          · exact ⟨[], first, hbyte, by rw [if_pos hzero]; rfl⟩
          · obtain ⟨t, ht⟩ := parsedLabels_ok buffer 0 n [] hn
              (by rw [Nat.add_zero, hget, Ne, Option.some.injEq]; exact hzero)
            refine ⟨downcaseAndRemoveWwwPrefix t, first, hbyte, ?_⟩
            rw [if_neg hzero, Stages.bind_eq_ok]
            exact ⟨t, ht, rfl⟩
    obtain ⟨t, ht⟩ := hname
    refine ⟨Text.equals t w.server.domainName, ?_, fun _ => hquery.2.2⟩
    rw [Stages.bind_eq_ok]
    exact ⟨t, ht, rfl⟩
  · exact ⟨false, rfl, fun hb => (by cases hb)⟩

/-- A request is replied to as its header and the condition say. -/
theorem reply_spec (w : World) (h : DNSHeader) (q : DNSQuestion) (a : Answers) (b : Bool)
    (hb : w.resolves h = .ok b) (hq : b = true → q.QNameLength ≤ 256)
    (hbound : w.server.udp.udp_server = true) (htx : w.server.udp.tx_buffer.isSome = true) :
    ∃ w', w.reply h q a = .ok w' ∧ Keeps w w' ∧
      (w.server.udp.remote.port ≠ 0 → h.QR = 0 → w'.handed = w.handed ++
        [⟨w.server.udp.remote,
          if b then answerBytes h q w.server.ttl w.server.resolvedIP
          else errorBytes h w.server.errorReplyCode⟩]) := by
  -- a packet that is itself a reply is not answered with a code
  cases b with
  | true =>
      obtain ⟨w', hw', hkeeps, hhanded⟩ := replyWithIP_spec w h q a hbound htx (hq rfl)
      refine ⟨w', ?_, hkeeps, fun hport _ => hhanded hport⟩
      rw [World.reply, Stages.bind_eq_ok]
      exact ⟨true, hb, hw'⟩
  | false =>
      by_cases hqr : h.QR = DNS_QR_QUERY
      · obtain ⟨w', hw', hkeeps, hhanded⟩ := replyWithCustomCode_spec w h a hbound htx
        refine ⟨w', ?_, hkeeps, fun hport _ => hhanded hport⟩
        rw [World.reply, Stages.bind_eq_ok]
        exact ⟨false, hb, by simp only [Bool.false_eq_true, if_false, if_pos hqr, hw']⟩
      · refine ⟨w, ?_, Keeps.refl w, fun _ h0 => absurd h0 hqr⟩
        rw [World.reply, Stages.bind_eq_ok]
        exact ⟨false, hb, by simp only [Bool.false_eq_true, if_false, if_neg hqr]; rfl⟩

/-- What is done with a harmless packet. -/
theorem handle_spec (w : World) (buffer : List UInt8) (question : DNSQuestion) (a : Answers)
    (hbuffer : w.server.buffer = some buffer) (hsafe : Harmless buffer)
    (hbound : w.server.udp.udp_server = true) (htx : w.server.udp.tx_buffer.isSome = true) :
    ∃ q b w', (OneQuestion buffer → copyQuestion buffer question = .ok q) ∧
      w.resolves (DNSHeader.ofBytes (buffer.take 12)) = .ok b ∧
      w.handle buffer question a = .ok w' ∧ Keeps w w' ∧
      (w.server.udp.remote.port ≠ 0 → (DNSHeader.ofBytes (buffer.take 12)).QR = 0 →
        w'.handed = w.handed ++
          [⟨w.server.udp.remote,
            if b then answerBytes (DNSHeader.ofBytes (buffer.take 12)) q w.server.ttl
              w.server.resolvedIP
            else errorBytes (DNSHeader.ofBytes (buffer.take 12)) w.server.errorReplyCode⟩]) := by
  obtain ⟨hlen, hquestion⟩ := hsafe
  obtain ⟨header, hload, hheader⟩ := CheckedBytes.exists_load buffer 0 DNS_HEADER_SIZE
    (by rw [Nat.zero_add]; exact hlen)
  have hbytes : header.1 = buffer.take 12 := hheader
  have hone := oneQuestion_iff buffer hlen
  -- without one question the former question stays
  have hcopy : ∃ q, takeQuestion (DNSHeader.ofBytes header.1) buffer question = .ok q ∧
      (OneQuestion buffer → copyQuestion buffer question = .ok q) := by
    rw [hbytes, takeQuestion]
    by_cases h1 : OneQuestion buffer
    · obtain ⟨q, hq⟩ := (copyQuestion_iff buffer question).2 (hquestion h1)
      exact ⟨q, by rw [if_pos (hone.2 h1), hq], fun _ => hq⟩
    · exact ⟨question, if_neg fun h => h1 (hone.1 h), fun h => absurd h h1⟩
  obtain ⟨q, hq, hcopied⟩ := hcopy
  obtain ⟨b, hb, hbone⟩ := resolves_ok w (DNSHeader.ofBytes (buffer.take 12)) buffer hbuffer
    fun h1 => (hquestion (hone.1 h1)).imp fun _ hn => hn.1
  -- only an answer sends the name, and then it was copied from this packet
  have hshort : b = true → q.QNameLength ≤ 256 := by
    intro hbt
    obtain ⟨n, -, hroom, -, hlen', -⟩ :=
      copyQuestion_result buffer question q (hcopied (hone.1 (hbone hbt)))
    rw [hlen']
    exact hroom
  obtain ⟨w', hw', hkeeps, hhanded⟩ := reply_spec
    { w with server := { w.server with
      dnsHeader := some (DNSHeader.ofBytes (buffer.take 12)), dnsQuestion := some q } }
    (DNSHeader.ofBytes (buffer.take 12)) q a b hb hshort hbound htx
  refine ⟨q, b, { w' with server := { w'.server with buffer := none } }, hcopied, hb, ?_, ?_,
    hhanded⟩
  -- the stages one after the other, each with the result of the former
  · simp only [World.handle, Stages.bind_eq_ok]
    refine ⟨header, hload, q, hq, ?_⟩
    rw [hbytes]
    exact ⟨w', hw', rfl⟩
  · exact ⟨hkeeps.configured, hkeeps.fault, hkeeps.domainName, hkeeps.resolvedIP,
      hkeeps.errorReplyCode, hkeeps.udp_server, hkeeps.tx_buffer⟩

/-- Any other packet is a fault. -/
theorem harmless_of_handle (w w' : World) (buffer : List UInt8) (question : DNSQuestion)
    (a : Answers) (h : w.handle buffer question a = .ok w') : Harmless buffer := by
  simp only [World.handle, Stages.bind_eq_ok] at h
  obtain ⟨header, hload, q, hq, -⟩ := h
  obtain ⟨hlen, hheader⟩ := (CheckedBytes.load_eq_ok _ _ _ _).1 hload
  have hlen12 : 12 ≤ buffer.length := by
    rw [Nat.zero_add] at hlen
    exact hlen
  refine ⟨hlen12, ?_⟩
  intro hone
  have hbytes : header.1 = buffer.take 12 := hheader
  rw [hbytes, takeQuestion, if_pos ((oneQuestion_iff buffer hlen12).2 hone)] at hq
  exact (copyQuestion_iff buffer question).1 ⟨q, hq⟩

/-! ### Taking a packet -/

/-- The packet that a call takes from the socket. -/
def received (w : World) (a : Answers) : Option Datagram :=
  if w.server.dnsHeader.isSome ∧ w.server.dnsQuestion.isSome ∧ w.server.udp.rx_buffer.isNone ∧
      a.rx = true ∧ w.server.udp.udp_server = true then
    match w.waiting with
    | [] => none
    | d :: _ => if d.bytes = [] then none else some ⟨d.peer, d.bytes.take kUdpBufferSize⟩
  else none

/-- The world with the packet in the buffer. -/
def taken (w : World) (d : Datagram) : World :=
  { w with
    server := { w.server with
      udp := { w.server.udp with remote := d.peer, rx_buffer := none, rx_len := 0, rx_pos := 0 }
      currentPacketSize := d.bytes.length
      buffer := some d.bytes }
    waiting := w.waiting.tail }

/-- A packet that is received is in the buffer, if there is memory for one. -/
theorem process_received (w : World) (a : Answers) (d : Datagram) (h : received w a = some d)
    (hbuffer : a.buffer = true) :
    w.server.udp.udp_server = true ∧ ∃ question,
      w.processNextRequest a = (taken w d).handle d.bytes question a := by
  -- a packet is received only where every allocation has succeeded
  unfold received at h
  split_ifs at h with hready
  obtain ⟨hheader, hquestion, hrx, halloc, hbound⟩ := hready
  cases hwaiting : w.waiting with
  | nil =>
      rw [hwaiting] at h
      cases h
  | cons first rest =>
      rw [hwaiting] at h
      simp only at h
      split_ifs at h with hempty
      cases h
      obtain ⟨header, hheader⟩ := Option.isSome_iff_exists.1 hheader
      obtain ⟨question, hquestion⟩ := Option.isSome_iff_exists.1 hquestion
      -- what waits is cut to the buffer of the UDP object
      have hnone : w.server.udp.rx_buffer = none := Option.isNone_iff_eq_none.1 hrx
      have hlen : 0 < (first.bytes.take kUdpBufferSize).length := by
        have := List.length_pos_iff.2 hempty
        rw [List.length_take, kUdpBufferSize]
        omega
      have hparse : w.server.udp.parsePacket (first :: rest) a.rx =
          ({ w.server.udp with
            remote := first.peer, rx_buffer := some (first.bytes.take kUdpBufferSize)
            rx_len := (first.bytes.take kUdpBufferSize).length, rx_pos := 0 },
            rest, ⟨(first.bytes.take kUdpBufferSize).length, []⟩) := by
        simp only [WiFiUDP.parsePacket, hnone, halloc, hbound, Option.isSome_none,
          Bool.false_eq_true, Bool.not_true, if_false]
      refine ⟨hbound, question, ?_⟩
      have hne : ((first.bytes.take kUdpBufferSize).length : Int) ≠ 0 := by omega
      have hzero : ((first.bytes.take kUdpBufferSize).length == 0) = false := by
        rw [beq_eq_false_iff_ne]
        omega
      -- the whole packet is read into the copy that is handled
      simp only [World.processNextRequest, hheader, hquestion, hwaiting, hparse, if_neg hne,
        hbuffer, Bool.not_true, Bool.false_eq_true, if_false, WiFiUDP.readInto, Int.toNat_natCast,
        hzero, Bool.false_or, Nat.sub_zero, Nat.min_self, List.drop_zero, List.take_length,
        Nat.zero_add, Nat.le_refl, if_true, WiFiUDP.flush, taken, List.tail_cons]

/-- `parsePacket` touches neither the socket nor the transmit buffer. -/
theorem parsePacket_frame (u : WiFiUDP) (waiting : List Datagram) (alloc : Bool) :
    (u.parsePacket waiting alloc).1.udp_server = u.udp_server ∧
      (u.parsePacket waiting alloc).1.tx_buffer = u.tx_buffer := by
  unfold WiFiUDP.parsePacket
  split_ifs
  · exact ⟨rfl, rfl⟩
  · exact ⟨rfl, rfl⟩
  · exact ⟨rfl, rfl⟩
  · cases waiting with
    | nil => exact ⟨rfl, rfl⟩
    | cons d waiting => exact ⟨rfl, rfl⟩

/-- A packet with bytes in it is received. -/
theorem received_of_parsePacket (w : World) (a : Answers)
    (hheader : w.server.dnsHeader.isSome = true) (hquestion : w.server.dnsQuestion.isSome = true)
    (h : (w.server.udp.parsePacket w.waiting a.rx).2.2.ret ≠ 0) : received w a ≠ none := by
  unfold WiFiUDP.parsePacket at h
  -- no packet has a size without a buffer and a socket
  split_ifs at h with hrx halloc hbound
  · exact absurd rfl h
  · exact absurd rfl h
  · exact absurd rfl h
  · rw [Bool.not_eq_true, Bool.not_eq_false'] at halloc hbound
    rw [Bool.not_eq_true, Option.isSome_eq_false_iff] at hrx
    rw [received, if_pos ⟨hheader, hquestion, hrx, halloc, hbound⟩]
    cases hwaiting : w.waiting with
    | nil =>
        rw [hwaiting] at h
        exact absurd rfl h
    | cons d rest =>
        rw [hwaiting] at h
        simp only at h ⊢
        split_ifs with hempty
        · rw [hempty] at h
          exact absurd rfl h
        · exact Option.some_ne_none _

/-- Otherwise the call returns, and hands nothing to lwIP. -/
theorem process_idle (w : World) (a : Answers)
    (h : received w a = none ∨ a.buffer = false) :
    ∃ w', w.processNextRequest a = .ok w' ∧ Keeps w w' ∧ w'.handed = w.handed := by
  obtain ⟨hserver, htx⟩ := parsePacket_frame w.server.udp w.waiting a.rx
  -- whatever the size and the buffer become
  have hkeeps : ∀ (size : Int) (buffer : Option (List UInt8)), Keeps w
      { w with
        server := { w.server with
          udp := (w.server.udp.parsePacket w.waiting a.rx).1
          currentPacketSize := size
          buffer := buffer }
        waiting := (w.server.udp.parsePacket w.waiting a.rx).2.1 } := by
    intro size buffer
    exact ⟨rfl, rfl, rfl, rfl, rfl, hserver, fun hsome => by rw [htx]; exact hsome⟩
  unfold World.processNextRequest
  split
  · next header question hheader hquestion =>
      simp only
      split_ifs with hzero hbuffer
      · exact ⟨_, rfl, hkeeps _ _, rfl⟩
      · exact ⟨_, rfl, hkeeps _ _, rfl⟩
      · have hreceived := received_of_parsePacket w a (by rw [hheader]; rfl)
          (by rw [hquestion]; rfl) hzero
        rw [Bool.not_eq_true, Bool.not_eq_false'] at hbuffer
        rcases h with h | h
        · exact absurd h hreceived
        · rw [hbuffer] at h
          cases h
  · exact ⟨w, rfl, Keeps.refl w, rfl⟩

/-! ### The law -/

/-- The call returns, and every access it makes is to bytes that are there. -/
def Safe (w : World) (e : Event) : Prop :=
  (turn w e).isOk = true

/-- A packet that is copied to the buffer is harmless. -/
def Takes (w : World) (e : Event) : Prop :=
  match e with
  | .processNextRequest a => a.buffer = true → ∀ d ∈ received w a, Harmless d.bytes
  | _ => True

instance (w : World) (e : Event) : Decidable (Safe w e) :=
  inferInstanceAs (Decidable (_ = true))

/-- Nothing was done that is a fault, and a socket has a buffer to send from. -/
def Sound (w : World) : Prop :=
  w.fault = none ∧
    (w.server.udp.udp_server = true → w.server.udp.tx_buffer.isSome = true)

theorem sound_of_keeps (w w' : World) (h : Keeps w w') (hw : Sound w) : Sound w' := by
  refine ⟨h.fault.trans hw.1, ?_⟩
  intro hbound
  exact h.tx_buffer (hw.2 (h.udp_server.symm.trans hbound))

/-- A call is safe just when the packet it takes is harmless, and then it keeps what the others
    rely on. -/
theorem process_safe (w : World) (a : Answers) (hw : Sound w) :
    (Safe w (.processNextRequest a) ↔ Takes w (.processNextRequest a)) ∧
      ∀ w', w.processNextRequest a = .ok w' → Keeps w w' := by
  by_cases hidle : received w a = none ∨ a.buffer = false
  · -- nothing is copied, so nothing is asked of the packet
    obtain ⟨w', hw', hkeeps, -⟩ := process_idle w a hidle
    refine ⟨⟨fun _ => ?_, fun _ => ?_⟩, ?_⟩
    · intro hbuffer d hd
      rcases hidle with h | h
      · rw [h] at hd
        cases hd
      · rw [hbuffer] at h
        cases h
    · rw [Safe, turn, hw']
      rfl
    · intro w'' hw''
      rw [hw'] at hw''
      cases hw''
      exact hkeeps
  · rw [not_or, Bool.not_eq_false] at hidle
    obtain ⟨hne, hbuffer⟩ := hidle
    obtain ⟨d, hd⟩ := Option.ne_none_iff_exists'.1 hne
    obtain ⟨hbound, question, hprocess⟩ := process_received w a d hd hbuffer
    have htaken : Keeps w (taken w d) := ⟨rfl, rfl, rfl, rfl, rfl, rfl, id⟩
    have hspec : Harmless d.bytes → ∃ w', w.processNextRequest a = .ok w' ∧ Keeps w w' := by
      intro hsafe
      obtain ⟨q, b, w', -, -, hw', hkeeps, -⟩ :=
        handle_spec (taken w d) d.bytes question a rfl hsafe hbound (hw.2 hbound)
      exact ⟨w', hprocess.trans hw', htaken.trans hkeeps⟩
    refine ⟨⟨?_, ?_⟩, ?_⟩
    · -- a packet that is not harmless would have been a fault
      intro hsafe hbuf d' hd'
      rw [hd, Option.mem_some_iff] at hd'
      subst hd'
      rw [Safe, turn, hprocess] at hsafe
      cases hhandle : (taken w d).handle d.bytes question a with
      | error f =>
          rw [hhandle] at hsafe
          cases hsafe
      | ok w' => exact harmless_of_handle _ _ _ _ _ hhandle
    · intro htakes
      obtain ⟨w', hw', -⟩ := hspec (htakes hbuffer d hd)
      rw [Safe, turn, hw']
      rfl
    · intro w' hw'
      have hhandle := hw'
      rw [hprocess] at hhandle
      obtain ⟨w'', hw'', hkeeps⟩ := hspec (harmless_of_handle _ _ _ _ _ hhandle)
      rw [hw'] at hw''
      cases hw''
      exact hkeeps

/-- The other calls and the arrival of a packet are safe. -/
theorem safe_iff (w : World) (e : Event) (hw : Sound w) : Safe w e ↔ Takes w e := by
  cases e with
  | processNextRequest a => exact (process_safe w a hw).1
  | start port domainName resolvedIP began => exact ⟨fun _ => True.intro, fun _ => rfl⟩
  | stop => exact ⟨fun _ => True.intro, fun _ => rfl⟩
  | setErrorReplyCode replyCode => exact ⟨fun _ => True.intro, fun _ => rfl⟩
  | setTTL ttl => exact ⟨fun _ => True.intro, fun _ => rfl⟩
  | arrive d => exact ⟨fun _ => True.intro, fun _ => rfl⟩

theorem sound_step (w : World) (e : Event) (hw : Sound w) (h : Safe w e) : Sound (step w e) := by
  have hgoes : w.fault.isSome = false := by
    rw [hw.1]
    rfl
  rw [step, hgoes]
  simp only [Bool.false_eq_true, if_false]
  cases e with
  | processNextRequest a =>
      rw [Safe, turn] at h
      cases hprocess : w.processNextRequest a with
      | error f =>
          rw [hprocess] at h
          cases h
      | ok w' =>
          rw [turn, hprocess]
          exact sound_of_keeps w w' ((process_safe w a hw).2 w' hprocess) hw
  | start port domainName resolvedIP began =>
      -- `begin` makes the buffer with the socket, and without one there is none to send from
      refine ⟨hw.1, ?_⟩
      cases began with
      | true => exact fun _ => rfl
      | false => exact fun hbound => (by cases hbound)
  | stop => exact ⟨hw.1, fun hbound => (by cases hbound)⟩
  | setErrorReplyCode replyCode => exact hw
  | setTTL ttl => exact hw
  | arrive d =>
      simp only [turn, World.arrive]
      split_ifs
      · exact hw
      · exact hw

/-- Along a run of calls and arrivals every call is safe up to the end just when every packet
    that is copied to the buffer is harmless. -/
theorem requests_safe_iff (dnsHeader : Option DNSHeader) (dnsQuestion : Option DNSQuestion)
    (es : List Event) :
    Always step Safe (World.new dnsHeader dnsQuestion) es ↔
      Always step Takes (World.new dnsHeader dnsQuestion) es := by
  refine EventRun.always_iff_of_good (I := Sound) sound_step safe_iff ?_ es
  exact ⟨rfl, fun hbound => (by cases hbound)⟩

/-- A new server whose memory is zero. -/
def World.zeroed : World :=
  .new (some (DNSHeader.ofBytes [])) (some ⟨Block.zeros 256, 0, Block.zeros 2, Block.zeros 2⟩)

/-- The calls of a server for the domain, and one packet that comes to it. -/
def asked (domainName : Text) (packet : List UInt8) : List Event :=
  [.start 53 domainName (.v4 192 168 4 1) true, .arrive ⟨⟨1, 4000⟩, packet⟩,
    .processNextRequest ⟨true, true, true, true⟩]

/-- The packets: a header that is cut off, a label that goes past the end, a pointer, which the
    scan takes for a label of 192 bytes, and a name of more than 256 bytes. -/
theorem requests_not_safe :
    List.Forall (fun packet => ¬ Always step Safe World.zeroed (asked Text.star packet))
      [[0, 7, 1],
        [0, 7, 1, 0, 0, 1, 0, 0, 0, 0, 0, 0, 63, 97, 0, 0, 1, 0, 1],
        [0, 7, 1, 0, 0, 1, 0, 0, 0, 0, 0, 0, 192, 12, 0, 1, 0, 1],
        [0, 7, 1, 0, 0, 1, 0, 0, 0, 0, 0, 0] ++ List.replicate 260 1 ++ [0, 0, 1, 0, 1]] := by
  decide +kernel

end Dns

end ArduinoBeken
