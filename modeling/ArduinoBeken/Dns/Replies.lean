import ArduinoBeken.Dns.RequestSafety

/-!
# What a Query Is Replied With

A query is a message, whatever its bytes are, that comes from somewhere a reply can go to, so
from a port. It is standard if it asks one question and has nothing else in it, but for an EDNS
record. A reply goes back, it is a message as well, so its counts are those of its sections,
and it has the ID of the query. The address is the answer to a standard query whose name is
the configured one, both in lower case and without one leading `www.`, or any if that is `*`;
other queries get the error code and no record.

The header of a reply is the one of the query with some fields set. Setting the error code
leaves the three counts of records as they are, so a query that has records, an EDNS record for
one, gets a header that counts records and has none. And names are compared without any
`www.`, so some that differ are answered. Clear of these, the law holds: `replies_iff`.

## Main definitions

* `Standard`, `Matches`, `Resolved`, `RepliesTo`: What a reply has to be.
* `Taken`, `TellsApart`: What the server compares, and when that comes to the same.
* `Answered`, `Answerable`, `Clear`: The law and its condition.
* `Carries`, `Declines`: The two kinds of replies.

## Theorems

* `answerHeader_bytes`, `errorHeader_bytes`: The headers of the replies.
* `taken_iff`, `resolves_value`: When a query is answered with the address.
* `query_reply`: The reply to a query.
* `carries_repliesTo_iff`, `declines_repliesTo_iff`: When it is the one that is asked for.
* `replies_iff`: The law along a run.
-/

namespace ArduinoBeken

namespace Dns

open CheckedBytes (Block byte)
open DnsMessage (Flags Message Name Question word walkLength)
open EventRun (Always)
open WiFi.StaticIp (IPAddress)
open WiFi.Udp (Datagram)
open Text

/-! ### Headers -/

theorem toBytes_halfword (lo hi : UInt8) :
    ByteOrder.toBytes 2 (ByteOrder.ofBytes [lo, hi]) = [lo, hi] :=
  ByteOrder.toBytes_ofBytes [lo, hi]

/-- The fields of the flags. -/
theorem flags_fields (b0 b1 f1 f0 : UInt8) (rest : List UInt8) :
    let h := DNSHeader.ofBytes (b0 :: b1 :: f1 :: f0 :: rest)
    h.RD < 2 ∧ h.TC < 2 ∧ h.AA < 2 ∧ h.OPCode = f1.toNat / 8 % 16 ∧ h.QR = f1.toNat / 128 ∧
      h.RCode < 16 := by
  have hf1 : f1.toNat < 256 := f1.toNat_lt
  have hf0 : f0.toNat < 256 := f0.toNat_lt
  have hflags : halfword (b0 :: b1 :: f1 :: f0 :: rest) 2 = f1.toNat + 256 * f0.toNat := by
    change ByteOrder.ofBytes [f1, f0] = _
    simp only [ByteOrder.ofBytes]
    omega
  simp only [DNSHeader.ofBytes, hflags]
  omega

/-- A header with the response bit, and what the wire makes of it. -/
theorem response_flags (h : DNSHeader) (hrd : h.RD < 2) (htc : h.TC < 2) (haa : h.AA < 2)
    (hop : h.OPCode < 16) (hqr : h.QR = 1) (hrc : h.RCode < 16) :
    ∃ g1 g0, ByteOrder.toBytes 2 h.Flags = [g1, g0] ∧ (Flags.read g1 g0).qr = true ∧
      (Flags.read g1 g0).rcode = h.RCode := by
  have hlow : (UInt8.ofNat h.Flags).toNat = h.Flags % 256 := UInt8.toNat_ofNat'
  have hhigh : (UInt8.ofNat (h.Flags / 256)).toNat = h.Flags / 256 % 256 := UInt8.toNat_ofNat'
  have hflags : h.Flags = h.RD + 2 * h.TC + 4 * h.AA + 8 * h.OPCode + 128 * h.QR +
      256 * h.RCode + 4096 * h.Z + 32768 * h.RA := rfl
  refine ⟨UInt8.ofNat h.Flags, UInt8.ofNat (h.Flags / 256), rfl, ?_, ?_⟩
  · change ((UInt8.ofNat h.Flags).toNat / 128 == 1) = true
    rw [hlow, beq_iff_eq]
    omega
  · change (UInt8.ofNat (h.Flags / 256)).toNat % 16 = h.RCode
    rw [hhigh]
    omega

theorem replyCode_lt (replyCode : DNSReplyCode) : replyCode.toNat < 16 := by
  cases replyCode <;> decide

/-- The header of an error, on the wire: the counts of records stay. -/
theorem errorHeader_bytes (i1 i0 f1 f0 qd1 qd0 an1 an0 ns1 ns0 ar1 ar0 : UInt8)
    (replyCode : DNSReplyCode) :
    ∃ g1 g0, errorBytes (DNSHeader.ofBytes
        [i1, i0, f1, f0, qd1, qd0, an1, an0, ns1, ns0, ar1, ar0]) replyCode =
        [i1, i0, g1, g0, 0, 0, an1, an0, ns1, ns0, ar1, ar0] ∧
      (Flags.read g1 g0).qr = true ∧ (Flags.read g1 g0).rcode = replyCode.toNat := by
  obtain ⟨hrd, htc, haa, hop, -⟩ :=
    flags_fields i1 i0 f1 f0 [qd1, qd0, an1, an0, ns1, ns0, ar1, ar0]
  have hcode := replyCode_lt replyCode
  obtain ⟨g1, g0, hbytes, hqr, hrcode⟩ := response_flags
    (errorHeader (DNSHeader.ofBytes
      [i1, i0, f1, f0, qd1, qd0, an1, an0, ns1, ns0, ar1, ar0]) replyCode)
    hrd htc haa (Nat.lt_of_le_of_lt (Nat.le_of_eq hop) (Nat.mod_lt _ (by decide))) rfl
    (Nat.mod_lt _ (by decide))
  refine ⟨g1, g0, ?_, hqr, ?_⟩
  · rw [errorBytes, DNSHeader.toBytes, hbytes]
    -- all but the flags and the first count are the bytes that came
    change ByteOrder.toBytes 2 (ByteOrder.ofBytes [i1, i0]) ++ [g1, g0] ++
      ByteOrder.toBytes 2 0 ++ ByteOrder.toBytes 2 (ByteOrder.ofBytes [an1, an0]) ++
      ByteOrder.toBytes 2 (ByteOrder.ofBytes [ns1, ns0]) ++
      ByteOrder.toBytes 2 (ByteOrder.ofBytes [ar1, ar0]) = _
    simp only [toBytes_halfword]
    rfl
  · rw [hrcode, errorHeader]
    exact Nat.mod_eq_of_lt hcode

/-- The header of an answer, on the wire: as many answers as there were questions. -/
theorem answerHeader_bytes (i1 i0 f1 f0 qd1 qd0 an1 an0 ns1 ns0 ar1 ar0 : UInt8) :
    ∃ g1 g0, (answerHeader (DNSHeader.ofBytes
        [i1, i0, f1, f0, qd1, qd0, an1, an0, ns1, ns0, ar1, ar0])).toBytes =
        [i1, i0, g1, g0, qd1, qd0, qd1, qd0, ns1, ns0, ar1, ar0] ∧
      (Flags.read g1 g0).qr = true := by
  -- every field fits its bits, so the header is written as it was read
  obtain ⟨hrd, htc, haa, hop, -, hrc⟩ :=
    flags_fields i1 i0 f1 f0 [qd1, qd0, an1, an0, ns1, ns0, ar1, ar0]
  obtain ⟨g1, g0, hbytes, hqr, -⟩ := response_flags
    (answerHeader (DNSHeader.ofBytes [i1, i0, f1, f0, qd1, qd0, an1, an0, ns1, ns0, ar1, ar0]))
    hrd htc haa (Nat.lt_of_le_of_lt (Nat.le_of_eq hop) (Nat.mod_lt _ (by decide))) rfl hrc
  refine ⟨g1, g0, ?_, hqr⟩
  rw [DNSHeader.toBytes, hbytes]
  change ByteOrder.toBytes 2 (ByteOrder.ofBytes [i1, i0]) ++ [g1, g0] ++
    ByteOrder.toBytes 2 (ByteOrder.ofBytes [qd1, qd0]) ++
    ByteOrder.toBytes 2 (ByteOrder.ofBytes [qd1, qd0]) ++
    ByteOrder.toBytes 2 (ByteOrder.ofBytes [ns1, ns0]) ++
    ByteOrder.toBytes 2 (ByteOrder.ofBytes [ar1, ar0]) = _
  simp only [toBytes_halfword]
  rfl

/-! ### Names -/

/-- What the second scan makes of a name that is written in full. -/
theorem getDomainName_value (buffer : List UInt8) (n : Name) (rest : List UInt8)
    (h : buffer.drop 12 = n.wire ++ rest) :
    getDomainNameWithoutWwwPrefix (some buffer) = .ok (downcaseAndRemoveWwwPrefix n.text) := by
  rw [getDomainNameWithoutWwwPrefix]
  simp only [Stages.bind_eq_ok]
  cases n with
  | nil =>
      have hget : buffer[12]? = some 0 := by
        rw [← Nat.add_zero 12, ← List.getElem?_drop, h]
        rfl
      exact ⟨0, (CheckedBytes.byte_eq_ok _ _ _).2 hget, by rw [if_pos rfl]; rfl⟩
  | cons l n =>
      have hget := (label_at buffer 12 l n rest h).1
      refine ⟨_, (CheckedBytes.byte_eq_ok _ _ _).2 hget, ?_⟩
      rw [if_neg (DnsMessage.label_length_ne_zero l), Stages.bind_eq_ok]
      exact ⟨_, parsedLabels_name buffer 0 [] l n rest h, rfl⟩

/-- The configured domain is `*`, or the name, without any `www.`. -/
def Taken (domainName : Text) (name : Text) : Prop :=
  bare domainName = star ∨
    (bare name = bare domainName ∧ (behind name).length = (behind domainName).length)

instance (domainName name : Text) : Decidable (Taken domainName name) :=
  inferInstanceAs (Decidable (_ ∨ _))

/-- The configured domain is `*`, or the name in plain form. -/
def Matches (domainName : Text) (name : Text) : Prop :=
  domainName = star ∨ plain name = plain domainName

instance (domainName name : Text) : Decidable (Matches domainName name) :=
  inferInstanceAs (Decidable (_ ∨ _))

/-- Without any `www.` the name is the configured one only if it is so in plain form. -/
def TellsApart (domainName : Text) (name : Text) : Prop :=
  Taken domainName name → Matches domainName name

theorem taken_of_matches (domainName name : Text) (h : Matches domainName name) :
    Taken domainName name := by
  rcases h with rfl | h
  · exact Or.inl (by decide +kernel)
  · exact Or.inr (bare_of_plain_eq name domainName h)

/-- When the server takes the name for the configured one. -/
theorem taken_iff (domainName name : Text) :
    Taken domainName name ↔
      equalsCstr (downcaseAndRemoveWwwPrefix domainName) star = true ∨
        equals (downcaseAndRemoveWwwPrefix name) (downcaseAndRemoveWwwPrefix domainName) =
          true := by
  rw [equalsCstr_star_iff, equals_iff]
  exact Iff.rfl

/-- When a query is answered with the address. -/
theorem resolves_value (w : World) (buffer : List UInt8) (h : DNSHeader) (b : Bool)
    (hbuffer : w.server.buffer = some buffer) (hb : w.resolves h = .ok b) (n : Name)
    (rest : List UInt8) (hname : requestIncludesOnlyOneQuestion h = true →
      buffer.drop 12 = n.wire ++ rest) :
    b = true ↔ h.QR = 0 ∧ h.OPCode = 0 ∧ requestIncludesOnlyOneQuestion h = true ∧
      (equalsCstr w.server.domainName star = true ∨
        equals (downcaseAndRemoveWwwPrefix n.text) w.server.domainName = true) := by
  rw [World.resolves] at hb
  -- the star answers every name, so the name is read only where there is none
  split_ifs at hb with hquery hstar
  · cases hb
    exact ⟨fun _ => ⟨hquery.1, hquery.2.1, hquery.2.2, Or.inl hstar⟩, fun _ => rfl⟩
  · rw [hbuffer, getDomainName_value buffer n rest (hname hquery.2.2)] at hb
    have heq : equals (downcaseAndRemoveWwwPrefix n.text) w.server.domainName = b :=
      Except.ok.inj hb
    rw [heq]
    refine ⟨fun hbt => ⟨hquery.1, hquery.2.1, hquery.2.2, Or.inr hbt⟩, ?_⟩
    rintro ⟨-, -, -, h | h⟩
    · exact absurd h hstar
    · exact h
  · cases hb
    refine ⟨fun h => (by cases h), ?_⟩
    rintro ⟨hqr, hop, hone, -⟩
    exact absurd ⟨hqr, hop, hone⟩ hquery

/-! ### The law -/

/-- A standard query: one question, and nothing else but an EDNS record. -/
def Standard (q : Message) (x : Question) : Prop :=
  q.flags.opcode = 0 ∧ q.questions = [x] ∧ q.answers = [] ∧ q.authority = [] ∧
    (q.additional = [] ∨ ∃ r, q.additional = [r] ∧ r.kind = 41)

/-- What an A record carries. -/
def addressBytes : IPAddress → Option (List UInt8)
  | .v4 a b c d => some [a, b, c, d]
  | .v6 _ => none

/-- The question is answered with one A record, which carries the configured address. -/
def Resolved (c : Configured) (x : Question) (r : Message) : Prop :=
  r.questions = [x] ∧ r.authority = [] ∧ r.additional = [] ∧
    ∃ ttl, ∃ data ∈ addressBytes c.resolvedIP, r.answers = [⟨x.name, 1, 1, ttl, data⟩]

/-- What the reply to a query has to be. -/
def RepliesTo (c : Configured) (q r : Message) : Prop :=
  r.id = q.id ∧ r.flags.qr = true ∧
    (∀ x, Standard q x → Matches c.domainName x.name.text → Resolved c x r) ∧
    ((∀ x, Standard q x → ¬ Matches c.domainName x.name.text) →
      r.flags.rcode = c.errorReplyCode.toNat ∧ r.answers = [])

/-- A query that is received comes from a port and is a message. -/
def Queries (w : World) (a : Answers) (d : Datagram) (q : Message) : Prop :=
  w.fault = none ∧ received w a = some d ∧ d.peer.port ≠ 0 ∧ Message.read d.bytes = some q ∧
    q.flags.qr = false

/-- One reply is sent to where a query came from, and it is a message. -/
def Answered (w : World) (e : Event) : Prop :=
  match e with
  | .processNextRequest a => ∀ d q, Queries w a d q →
    ∃ reply r, (step w e).handed = w.handed ++ [reply] ∧ reply.peer = d.peer ∧
      Message.read reply.bytes = some r ∧ RepliesTo w.configured q r
  | _ => True

/-- A query without records, whose name is taken for the configured one only if it is, and asks
    for an address that a record can carry. -/
def Clear (c : Configured) (q : Message) : Prop :=
  q.answers = [] ∧ q.authority = [] ∧ q.additional = [] ∧
    ∀ x, q.flags.opcode = 0 → q.questions = [x] →
      TellsApart c.domainName x.name.text ∧
        (Matches c.domainName x.name.text → (addressBytes c.resolvedIP).isSome)

/-- There is memory for a query, and it is clear of what the server does wrong. -/
def Answerable (w : World) (e : Event) : Prop :=
  match e with
  | .processNextRequest a => ∀ d q, Queries w a d q → a.buffer = true ∧ Clear w.configured q
  | _ => True

/-- What the server holds is what was configured, and a socket has a buffer to send from. -/
structure Faithful (w : World) : Prop where
  tx_buffer : w.server.udp.udp_server = true → w.server.udp.tx_buffer.isSome = true
  domainName : w.server.domainName = downcaseAndRemoveWwwPrefix w.configured.domainName
  resolvedIP : w.server.resolvedIP.1 = [octet w.configured.resolvedIP 0,
    octet w.configured.resolvedIP 1, octet w.configured.resolvedIP 2,
    octet w.configured.resolvedIP 3]
  errorReplyCode : w.server.errorReplyCode = w.configured.errorReplyCode

theorem faithful_of_keeps (w w' : World) (h : Keeps w w') (hw : Faithful w) : Faithful w' where
  tx_buffer := fun hbound => h.tx_buffer (hw.tx_buffer (h.udp_server.symm.trans hbound))
  domainName := by rw [h.domainName, h.configured, hw.domainName]
  resolvedIP := by rw [h.resolvedIP, h.configured, hw.resolvedIP]
  errorReplyCode := by rw [h.errorReplyCode, h.configured, hw.errorReplyCode]

theorem faithful_step (w : World) (e : Event) (hw : Faithful w) : Faithful (step w e) := by
  -- after a fault nothing changes any more
  rw [step]
  split_ifs with hfault
  · exact hw
  · rw [Bool.not_eq_true, Option.isSome_eq_false_iff, Option.isNone_iff_eq_none] at hfault
    -- only `start` sets what the replies are made of
    cases e with
    | processNextRequest a =>
        rw [turn]
        cases hprocess : w.processNextRequest a with
        | error f => exact ⟨hw.tx_buffer, hw.domainName, hw.resolvedIP, hw.errorReplyCode⟩
        | ok w' =>
            have hkeeps := (process_safe w a ⟨hfault, hw.tx_buffer⟩).2 w' hprocess
            exact faithful_of_keeps w w' hkeeps hw
    | start port domainName resolvedIP began =>
        refine ⟨?_, rfl, rfl, hw.errorReplyCode⟩
        cases began with
        | true => exact fun _ => rfl
        | false => exact fun hbound => (by cases hbound)
    | stop =>
        exact ⟨fun hbound => (by cases hbound), hw.domainName, hw.resolvedIP, hw.errorReplyCode⟩
    | setErrorReplyCode replyCode =>
        exact ⟨hw.tx_buffer, hw.domainName, hw.resolvedIP, rfl⟩
    | setTTL ttl => exact ⟨hw.tx_buffer, hw.domainName, hw.resolvedIP, hw.errorReplyCode⟩
    | arrive d =>
        simp only [turn, World.arrive]
        split_ifs
        · exact ⟨hw.tx_buffer, hw.domainName, hw.resolvedIP, hw.errorReplyCode⟩
        · exact hw

/-! ### The reply to a query -/

/-- The message has questions only. -/
def NoRecords (q : Message) : Prop :=
  q.answers = [] ∧ q.authority = [] ∧ q.additional = []

/-- The bytes of an answer, which are a message. -/
theorem answerBytes_read (i1 i0 f1 f0 t1 t0 s1 s0 : UInt8) (n : Name) (q : DNSQuestion)
    (ttl : Nat) (ip : Block 4) (hlen : n.wire.length ≤ 255)
    (hname : q.QName.1.take q.QNameLength = n.wire) (htype : q.QType.1 = [t1, t0])
    (hclass : q.QClass.1 = [s1, s0]) :
    ∃ r t, Message.read (answerBytes (DNSHeader.ofBytes [i1, i0, f1, f0, 0, 1, 0, 0, 0, 0, 0, 0])
        q ttl ip) = some r ∧ r.id = word i1 i0 ∧ r.flags.qr = true ∧
      r.questions = [⟨n, word t1 t0, word s1 s0⟩] ∧ r.answers = [⟨n, 1, 1, t, ip.1⟩] ∧
      r.authority = [] ∧ r.additional = [] := by
  obtain ⟨g1, g0, hheader, hqr⟩ := answerHeader_bytes i1 i0 f1 f0 0 1 0 0 0 0 0 0
  have hread := DnsMessage.read_answer i1 i0 g1 g0 t1 t0 s1 s0 0 1 0 1
    (UInt8.ofNat ttl) (UInt8.ofNat (ttl / 256)) (UInt8.ofNat (ttl / 256 / 256))
    (UInt8.ofNat (ttl / 256 / 256 / 256)) 0 4 n ip.1 hlen rfl ip.2.symm
  refine ⟨_, _, (congrArg Message.read ?_).trans hread, rfl, hqr, rfl, rfl, rfl, rfl⟩
  rw [answerBytes, recordBytes, hheader, hname, htype, hclass]
  simp only [List.append_assoc, List.cons_append, List.nil_append, ByteOrder.toBytes]

theorem noRecords_iff (q : Message) (an ns ar : Nat) (han : q.answers.length = an)
    (hns : q.authority.length = ns) (har : q.additional.length = ar) :
    NoRecords q ↔ an = 0 ∧ ns = 0 ∧ ar = 0 := by
  rw [← han, ← hns, ← har, List.length_eq_zero_iff, List.length_eq_zero_iff,
    List.length_eq_zero_iff]
  exact Iff.rfl

/-- The bytes of an error are a message if the query had no records, and none if it had. -/
theorem errorBytes_read (i1 i0 f1 f0 qd1 qd0 an1 an0 ns1 ns0 ar1 ar0 : UInt8) (q : Message)
    (replyCode : DNSReplyCode) (han : q.answers.length = word an1 an0)
    (hns : q.authority.length = word ns1 ns0) (har : q.additional.length = word ar1 ar0) :
    (¬ NoRecords q → Message.read (errorBytes (DNSHeader.ofBytes
        [i1, i0, f1, f0, qd1, qd0, an1, an0, ns1, ns0, ar1, ar0]) replyCode) = none) ∧
      (NoRecords q → ∃ flags, Message.read (errorBytes (DNSHeader.ofBytes
          [i1, i0, f1, f0, qd1, qd0, an1, an0, ns1, ns0, ar1, ar0]) replyCode) =
          some ⟨word i1 i0, flags, [], [], [], []⟩ ∧
        flags.qr = true ∧ flags.rcode = replyCode.toNat) := by
  obtain ⟨g1, g0, hbytes, hqr, hcode⟩ := errorHeader_bytes i1 i0 f1 f0 qd1 qd0 an1 an0 ns1 ns0
    ar1 ar0 replyCode
  have hrecords := noRecords_iff q _ _ _ han hns har
  rw [hbytes, DnsMessage.read_bare]
  constructor
  · intro h
    rw [if_neg fun hzero => h (hrecords.2 hzero)]
  · intro h
    rw [if_pos (hrecords.1 h)]
    exact ⟨_, rfl, hqr, hcode⟩

/-- The header of a message announces one question just when it has one and nothing else. -/
theorem oneQuestion_of_read (bytes : List UInt8) (q : Message)
    (h : Message.read bytes = some q) :
    OneQuestion bytes ↔ NoRecords q ∧ ∃ x, q.questions = [x] := by
  obtain ⟨i1, i0, f1, f0, qd1, qd0, an1, an0, ns1, ns0, ar1, ar0, rest, rfl, -, -, hqd, han, hns,
    har⟩ := DnsMessage.read_counts bytes q h
  rw [noRecords_iff q _ _ _ han hns har, ← List.length_eq_one_iff, hqd]
  change [qd1, qd0, an1, an0, ns1, ns0, ar1, ar0] = [0, 1, 0, 0, 0, 0, 0, 0] ↔ _
  -- no other records and one question are eight bytes of the header
  constructor
  · intro heq
    cases heq
    exact ⟨⟨rfl, rfl, rfl⟩, rfl⟩
  · rintro ⟨⟨h1, h2, h3⟩, h4⟩
    obtain ⟨rfl, rfl⟩ := DnsMessage.word_eq_zero _ _ h1
    obtain ⟨rfl, rfl⟩ := DnsMessage.word_eq_zero _ _ h2
    obtain ⟨rfl, rfl⟩ := DnsMessage.word_eq_zero _ _ h3
    obtain ⟨rfl, rfl⟩ := DnsMessage.word_eq_one _ _ h4
    rfl

/-- The only question of a message is written in full. -/
theorem single_of_read (bytes : List UInt8) (q : Message) (h : Message.read bytes = some q)
    (hone : OneQuestion bytes) :
    ∃ i1 i0 f1 f0 x t1 t0 s1 s0, q.questions = [x] ∧ x.name.wire.length ≤ 255 ∧
      x.kind = word t1 t0 ∧ x.cls = word s1 s0 ∧ bytes =
        i1 :: i0 :: f1 :: f0 :: 0 :: 1 :: 0 :: 0 :: 0 :: 0 :: 0 :: 0 ::
          (x.name.wire ++ [t1, t0, s1, s0]) := by
  obtain ⟨i1, i0, f1, f0, qd1, qd0, an1, an0, ns1, ns0, ar1, ar0, rest, rfl, -⟩ :=
    DnsMessage.read_counts bytes q h
  have hcounts : [qd1, qd0, an1, an0, ns1, ns0, ar1, ar0] = [0, 1, 0, 0, 0, 0, 0, 0] := hone
  cases hcounts
  obtain ⟨x, t1, t0, s1, s0, hx, hlen, hkind, hcls, rfl⟩ :=
    DnsMessage.read_single i1 i0 f1 f0 rest q h
  exact ⟨i1, i0, f1, f0, x, t1, t0, s1, s0, hx, hlen, hkind, hcls, rfl⟩

/-- A message is harmless. -/
theorem harmless_of_read (bytes : List UInt8) (q : Message) (h : Message.read bytes = some q) :
    Harmless bytes := by
  refine ⟨?_, ?_⟩
  · obtain ⟨i1, i0, f1, f0, qd1, qd0, an1, an0, ns1, ns0, ar1, ar0, rest, rfl, -⟩ :=
      DnsMessage.read_counts bytes q h
    simp only [List.length_cons]
    omega
  · intro hone
    obtain ⟨i1, i0, f1, f0, x, t1, t0, s1, s0, -, hlen, -, -, rfl⟩ := single_of_read bytes q h hone
    refine ⟨x.name.wire.length, DnsMessage.walkLength_wire x.name _, by omega, ?_⟩
    simp only [List.length_cons, List.length_append, List.length_nil]
    omega

/-- What the first scan has copied of a name that is written in full. -/
theorem copied_name (buffer : List UInt8) (question q : DNSQuestion) (n : Name)
    (t1 t0 s1 s0 : UInt8) (hbuffer : buffer.drop 12 = n.wire ++ [t1, t0, s1, s0])
    (h : copyQuestion buffer question = .ok q) :
    q.QName.1.take q.QNameLength = n.wire ∧ q.QType.1 = [t1, t0] ∧ q.QClass.1 = [s1, s0] := by
  obtain ⟨m, hwalk, -, -, hlen, hname, htype, hclass⟩ := copyQuestion_result buffer question q h
  rw [hbuffer, DnsMessage.walkLength_wire, Option.some.injEq] at hwalk
  have hbehind : buffer.drop (12 + m) = [t1, t0, s1, s0] := by
    rw [← List.drop_drop, hbuffer, ← hwalk, List.drop_left]
  refine ⟨?_, ?_, ?_⟩
  · rw [hlen, hname, hbuffer, ← hwalk, List.take_left]
  · rw [htype, hbehind]
    rfl
  · rw [hclass, ← List.drop_drop, hbehind]
    rfl

/-- The fields of the header that decide on the reply. -/
theorem header_of_read (bytes : List UInt8) (q : Message) (h : Message.read bytes = some q)
    (hquery : q.flags.qr = false) :
    (DNSHeader.ofBytes (bytes.take 12)).QR = 0 ∧
      (DNSHeader.ofBytes (bytes.take 12)).OPCode = q.flags.opcode := by
  obtain ⟨i1, i0, f1, f0, qd1, qd0, an1, an0, ns1, ns0, ar1, ar0, rest, rfl, -, hflags, -⟩ :=
    DnsMessage.read_counts bytes q h
  obtain ⟨-, -, -, hop, hqr, -⟩ :=
    flags_fields i1 i0 f1 f0 [qd1, qd0, an1, an0, ns1, ns0, ar1, ar0]
  refine ⟨?_, ?_⟩
  · rw [hflags, Flags.read] at hquery
    have hne : f1.toNat / 128 ≠ 1 := beq_eq_false_iff_ne.1 hquery
    have hf1 : f1.toNat < 256 := f1.toNat_lt
    refine hqr.trans ?_
    omega
  · rw [hflags]
    exact hop

/-- What a reply has that carries the address. -/
structure Carries (w : World) (q : Message) (reply : List UInt8) (x : Question) (r : Message)
    (ttl : Nat) : Prop where
  bare : NoRecords q
  opcode : q.flags.opcode = 0
  asked : q.questions = [x]
  taken : Taken w.configured.domainName x.name.text
  read : Message.read reply = some r
  id : r.id = q.id
  qr : r.flags.qr = true
  questions : r.questions = [x]
  answers : r.answers = [⟨x.name, 1, 1, ttl, w.server.resolvedIP.1⟩]
  authority : r.authority = []
  additional : r.additional = []

/-- What a reply is that has a header alone: a message if the query had no records. -/
structure Declines (w : World) (q : Message) (reply : List UInt8) : Prop where
  untaken : ∀ x, NoRecords q → q.flags.opcode = 0 → q.questions = [x] →
    ¬ Taken w.configured.domainName x.name.text
  unread : ¬ NoRecords q → Message.read reply = none
  read : NoRecords q → ∃ flags, Message.read reply = some ⟨q.id, flags, [], [], [], []⟩ ∧
    flags.qr = true ∧ flags.rcode = w.configured.errorReplyCode.toNat

/-- A header alone, if no name is taken for the configured one. -/
theorem declines_of_read (w : World) (bytes : List UInt8) (q : Message)
    (h : Message.read bytes = some q)
    (huntaken : ∀ x, NoRecords q → q.flags.opcode = 0 → q.questions = [x] →
      ¬ Taken w.configured.domainName x.name.text) :
    Declines w q (errorBytes (DNSHeader.ofBytes (bytes.take 12))
      w.configured.errorReplyCode) := by
  obtain ⟨i1, i0, f1, f0, qd1, qd0, an1, an0, ns1, ns0, ar1, ar0, rest, rfl, hid, -, -, han, hns,
    har⟩ := DnsMessage.read_counts bytes q h
  obtain ⟨hunread, hread⟩ := errorBytes_read i1 i0 f1 f0 qd1 qd0 an1 an0 ns1 ns0 ar1 ar0 q
    w.configured.errorReplyCode han hns har
  rw [← hid] at hread
  exact ⟨huntaken, hunread, hread⟩

/-- The address, if the only question asks for the configured name. -/
theorem carries_of_read (w : World) (bytes : List UInt8) (q : Message)
    (question copied : DNSQuestion) (h : Message.read bytes = some q) (hone : OneQuestion bytes)
    (hop : q.flags.opcode = 0) (hcopied : copyQuestion bytes question = .ok copied)
    (x : Question) (hx : q.questions = [x])
    (htaken : Taken w.configured.domainName x.name.text) :
    ∃ r ttl, Carries w q (answerBytes (DNSHeader.ofBytes (bytes.take 12)) copied w.server.ttl
      w.server.resolvedIP) x r ttl := by
  have hnone := ((oneQuestion_of_read bytes q h).1 hone).1
  obtain ⟨i1, i0, f1, f0, y, t1, t0, s1, s0, hy, hlen, hkind, hcls, rfl⟩ :=
    single_of_read bytes q h hone
  have hxy : x = y := (List.cons.inj (hx.symm.trans hy)).1
  subst hxy
  -- the question is copied whole, so the answer repeats it
  obtain ⟨hname, htype, hclass⟩ := copied_name _ question copied x.name t1 t0 s1 s0 rfl hcopied
  obtain ⟨r, ttl, hr, hid, hqr, hquestions, hanswers, hauthority, hadditional⟩ :=
    answerBytes_read i1 i0 f1 f0 t1 t0 s1 s0 x.name copied w.server.ttl w.server.resolvedIP hlen
      hname htype hclass
  rw [← hkind, ← hcls] at hquestions
  obtain ⟨_, _, _, _, _, _, _, _, _, _, _, _, _, hbytes, hqid, -⟩ :=
    DnsMessage.read_counts _ q h
  cases hbytes
  exact ⟨r, ttl, hnone, hop, hx, htaken, hr, hid.trans hqid.symm, hqr, hquestions, hanswers,
    hauthority, hadditional⟩

/-- A query is replied to with the address, or with a header alone. -/
theorem query_reply (w : World) (a : Answers) (d : Datagram) (q : Message) (hw : Faithful w)
    (hq : Queries w a d q) (hbuffer : a.buffer = true) :
    ∃ reply, (step w (.processNextRequest a)).handed = w.handed ++ [⟨d.peer, reply⟩] ∧
      ((∃ x r ttl, Carries w q reply x r ttl) ∨ Declines w q reply) := by
  obtain ⟨hfault, hreceived, hport, hread, hquery⟩ := hq
  -- the packet is taken from the socket and handled
  obtain ⟨hbound, question, hprocess⟩ := process_received w a d hreceived hbuffer
  have hsafe := harmless_of_read d.bytes q hread
  obtain ⟨copied, b, w', hcopied, hb, hhandle, -, hhanded⟩ :=
    handle_spec (taken w d) d.bytes question a rfl hsafe hbound (hw.tx_buffer hbound)
  obtain ⟨hqr, hopcode⟩ := header_of_read d.bytes q hread hquery
  have honly := oneQuestion_iff d.bytes hsafe.1
  have hstep : step w (.processNextRequest a) = w' := by
    rw [step, hfault, turn, hprocess, hhandle]
    rfl
  have hcode : (taken w d).server.errorReplyCode = w.configured.errorReplyCode :=
    hw.errorReplyCode
  have hdomain : (taken w d).server.domainName =
      downcaseAndRemoveWwwPrefix w.configured.domainName := hw.domainName
  rw [hcode] at hhanded
  refine ⟨_, by rw [hstep]; exact hhanded hport hqr, ?_⟩
  by_cases h1 : OneQuestion d.bytes
  -- with one question the name that is compared is the one it carries
  · obtain ⟨i1, i0, f1, f0, x, t1, t0, s1, s0, hx, -, -, -, hsame⟩ :=
      single_of_read d.bytes q hread h1
    have hdrop : d.bytes.drop 12 = x.name.wire ++ [t1, t0, s1, s0] := by
      rw [hsame]
      rfl
    have hvalue := resolves_value (taken w d) d.bytes _ b rfl hb x.name _ fun _ => hdrop
    rw [hdomain, ← taken_iff, hopcode] at hvalue
    cases b with
    | true =>
        obtain ⟨-, hop, -, htaken⟩ := hvalue.1 rfl
        exact Or.inl ⟨x, carries_of_read w d.bytes q question copied hread h1 hop (hcopied h1) x
          hx htaken⟩
    | false =>
        refine Or.inr (declines_of_read w d.bytes q hread ?_)
        intro y _ hop hy htaken
        rw [hx, List.cons.injEq] at hy
        rw [← hy.1] at htaken
        exact absurd (hvalue.2 ⟨hqr, hop, honly.2 h1, htaken⟩) Bool.false_ne_true
  · -- without a question the name is not looked at
    have hvalue := resolves_value (taken w d) d.bytes _ b rfl hb [] []
      fun h => absurd (honly.1 h) h1
    have hb0 : b = false := by
      cases b with
      | true => exact absurd (honly.1 (hvalue.1 rfl).2.2.1) h1
      | false => rfl
    rw [hb0]
    refine Or.inr (declines_of_read w d.bytes q hread ?_)
    intro x hnone _ hx _
    exact h1 ((oneQuestion_of_read d.bytes q hread).2 ⟨hnone, x, hx⟩)

/-! ### The law along a run -/

theorem standard_of_noRecords (q : Message) (x : Question) (hnone : NoRecords q)
    (hop : q.flags.opcode = 0) (hx : q.questions = [x]) : Standard q x :=
  ⟨hop, hx, hnone.1, hnone.2.1, Or.inl hnone.2.2⟩

/-- When the address is the reply that is asked for. -/
theorem carries_repliesTo_iff (w : World) (q : Message) (reply : List UInt8) (x : Question)
    (r : Message) (ttl : Nat) (hw : Faithful w) (h : Carries w q reply x r ttl) :
    RepliesTo w.configured q r ↔ Clear w.configured q := by
  have hstandard := standard_of_noRecords q x h.bare h.opcode h.asked
  have hsame : ∀ y, q.questions = [y] → y = x := by
    intro y hy
    exact (List.cons.inj (hy.symm.trans h.asked)).1
  constructor
  · rintro ⟨-, -, hyes, hno⟩
    -- the answer is there, so the name has to be the configured one
    have hmatch : Matches w.configured.domainName x.name.text := by
      by_contra hmatch
      have hempty := (hno fun y hy => hsame y hy.2.1 ▸ hmatch).2
      rw [h.answers] at hempty
      cases hempty
    refine ⟨h.bare.1, h.bare.2.1, h.bare.2.2, ?_⟩
    intro y _ hy
    rw [hsame y hy]
    refine ⟨fun _ => hmatch, fun _ => ?_⟩
    obtain ⟨-, -, -, -, data, hdata, -⟩ := hyes x hstandard hmatch
    exact Option.isSome_iff_exists.2 ⟨data, hdata⟩
  · rintro ⟨-, -, -, hname⟩
    obtain ⟨hapart, hcarries⟩ := hname x h.opcode h.asked
    have hmatch := hapart h.taken
    refine ⟨h.id, h.qr, ?_, ?_⟩
    · intro y hy _
      rw [hsame y hy.2.1]
      refine ⟨h.questions, h.authority, h.additional, ttl, w.server.resolvedIP.1, ?_, h.answers⟩
      -- the four bytes are the address, if it has four
      have hv4 := hcarries hmatch
      rw [hw.resolvedIP]
      cases hip : w.configured.resolvedIP with
      | v4 a b c d => rfl
      | v6 groups =>
          rw [hip] at hv4
          cases hv4
    · intro hother
      exact absurd hmatch (hother x hstandard)

/-- When a header alone is the reply that is asked for. -/
theorem declines_repliesTo_iff (w : World) (q : Message) (reply : List UInt8)
    (h : Declines w q reply) :
    (∃ r, Message.read reply = some r ∧ RepliesTo w.configured q r) ↔ Clear w.configured q := by
  constructor
  · rintro ⟨r, hr, -⟩
    have hnone : NoRecords q := by
      by_contra hnone
      -- what reads back as an answer in kind shows that nothing was asked for
      rw [h.unread hnone] at hr
      cases hr
    refine ⟨hnone.1, hnone.2.1, hnone.2.2, ?_⟩
    intro x hop hx
    have hfree := h.untaken x hnone hop hx
    exact ⟨fun htaken => absurd htaken hfree,
      fun hmatch => absurd (taken_of_matches _ _ hmatch) hfree⟩
  · rintro ⟨hanswers, hauthority, hadditional, -⟩
    have hnone : NoRecords q := ⟨hanswers, hauthority, hadditional⟩
    obtain ⟨flags, hr, hqr, hrcode⟩ := h.read hnone
    refine ⟨_, hr, rfl, hqr, ?_, fun _ => ⟨hrcode, rfl⟩⟩
    intro x hx hmatch
    exact absurd (taken_of_matches _ _ hmatch) (h.untaken x hnone hx.1 hx.2.1)

/-- A reply is sent only if there was memory for the query. -/
theorem buffer_of_sent (w : World) (a : Answers) (reply : Datagram) (hfault : w.fault = none)
    (h : (step w (.processNextRequest a)).handed = w.handed ++ [reply]) : a.buffer = true := by
  by_contra hbuffer
  obtain ⟨w', hw', -, hidle⟩ := process_idle w a (Or.inr (Bool.not_eq_true _ ▸ hbuffer))
  rw [step, hfault, turn, hw'] at h
  have hlen := congrArg List.length (hidle.symm.trans h)
  rw [List.length_append, List.length_singleton] at hlen
  omega

/-- A query gets its reply just when there is memory for it, it has no records, and its name is
    not taken for one that it is not. -/
theorem answered_iff (w : World) (a : Answers) (d : Datagram) (q : Message) (hw : Faithful w)
    (hq : Queries w a d q) :
    (∃ reply r, (step w (.processNextRequest a)).handed = w.handed ++ [reply] ∧
      reply.peer = d.peer ∧ Message.read reply.bytes = some r ∧ RepliesTo w.configured q r) ↔
    a.buffer = true ∧ Clear w.configured q := by
  constructor
  · rintro ⟨reply, r, hhanded, -, hr, hreplies⟩
    have hbuffer := buffer_of_sent w a reply hq.1 hhanded
    obtain ⟨bytes, hsent, hreply⟩ := query_reply w a d q hw hq hbuffer
    rw [hsent] at hhanded
    -- the one reply is the one that was sent
    have heq : ⟨d.peer, bytes⟩ = reply := (List.cons.inj (List.append_cancel_left hhanded)).1
    rw [← heq] at hr
    refine ⟨hbuffer, ?_⟩
    rcases hreply with ⟨x, r', ttl, hcarries⟩ | hdeclines
    · have hsame : r = r' := Option.some.inj (hr.symm.trans hcarries.read)
      rw [hsame] at hreplies
      exact (carries_repliesTo_iff w q bytes x r' ttl hw hcarries).1 hreplies
    · exact (declines_repliesTo_iff w q bytes hdeclines).1 ⟨r, hr, hreplies⟩
  · rintro ⟨hbuffer, hclear⟩
    obtain ⟨bytes, hsent, hreply⟩ := query_reply w a d q hw hq hbuffer
    rcases hreply with ⟨x, r, ttl, hcarries⟩ | hdeclines
    · exact ⟨_, r, hsent, rfl, hcarries.read,
        (carries_repliesTo_iff w q bytes x r ttl hw hcarries).2 hclear⟩
    · obtain ⟨r, hr, hreplies⟩ := (declines_repliesTo_iff w q bytes hdeclines).2 hclear
      exact ⟨_, r, hsent, rfl, hr, hreplies⟩

theorem faithful_new (dnsHeader : Option DNSHeader) (dnsQuestion : Option DNSQuestion) :
    Faithful (World.new dnsHeader dnsQuestion) :=
  ⟨fun hbound => (by cases hbound), rfl, rfl, rfl⟩

/-- Along a run of calls and arrivals every query gets its reply just when there is memory for
    each, none has records, and none has a name that is taken for one that it is not. -/
theorem replies_iff (dnsHeader : Option DNSHeader) (dnsQuestion : Option DNSQuestion)
    (es : List Event) :
    Always step Answered (World.new dnsHeader dnsQuestion) es ↔
      Always step Answerable (World.new dnsHeader dnsQuestion) es := by
  refine EventRun.always_iff_of_inv (I := Faithful) faithful_step ?_
    (faithful_new dnsHeader dnsQuestion) es
  intro w e hw
  cases e with
  -- only a processed request is answered
  | processNextRequest a =>
      constructor
      · intro h d q hq
        exact (answered_iff w a d q hw hq).1 (h d q hq)
      · intro h d q hq
        exact (answered_iff w a d q hw hq).2 (h d q hq)
  | start port domainName resolvedIP began => exact Iff.rfl
  | stop => exact Iff.rfl
  | setErrorReplyCode replyCode => exact Iff.rfl
  | setTTL ttl => exact Iff.rfl
  | arrive d => exact Iff.rfl

/-- The server when the query has come. -/
def World.asked (domainName : Text) (packet : List UInt8) : World :=
  EventRun.run step World.zeroed ((Dns.asked domainName packet).take 2)

/-- A query that is not to be answered as the server does makes the law fail. -/
theorem not_answered (domainName : Text) (packet : List UInt8) (q : Message)
    (hshort : packet ≠ [] ∧ packet.length ≤ 1460)
    (hq : Message.read packet = some q) (hquery : q.flags.qr = false)
    (hbad : ¬ NoRecords q ∨ ∃ x, q.flags.opcode = 0 ∧ q.questions = [x] ∧
      ¬ TellsApart domainName x.name.text) :
    ¬ Always step Answered World.zeroed (asked domainName packet) := by
  intro h
  have hw : Faithful (World.asked domainName packet) :=
    EventRun.inv_run (I := Faithful) faithful_step (faithful_new _ _) _
  have hqueries : Queries (World.asked domainName packet) ⟨true, true, true, true⟩
      ⟨⟨1, 4000⟩, packet⟩ q := by
    refine ⟨rfl, ?_, Nat.succ_ne_zero 3999, hq, hquery⟩
    change (if packet = [] then none
      else some (⟨⟨1, 4000⟩, packet.take 1460⟩ : Datagram)) = some ⟨⟨1, 4000⟩, packet⟩
    rw [if_neg hshort.1, List.take_of_length_le hshort.2]
  obtain ⟨-, h1, h2, h3, hname⟩ := (answered_iff _ _ _ _ hw hqueries).1 (h.2.2.1 _ _ hqueries)
  rcases hbad with hrecords | ⟨x, hop, hx, htold⟩
  · exact hrecords ⟨h1, h2, h3⟩
  · exact htold (hname x hop hx).1

/-- A query for `a` with an EDNS record. -/
def ednsQuery : List UInt8 :=
  [0, 7, 1, 0, 0, 1, 0, 0, 0, 0, 0, 1, 1, 97, 0, 0, 1, 0, 1, 0, 0, 41, 4, 208, 0, 0, 0, 0, 0, 0]

/-- A query for `awww.b`. -/
def nestedQuery : List UInt8 :=
  [0, 7, 1, 0, 0, 1, 0, 0, 0, 0, 0, 0, 4, 97, 119, 119, 119, 1, 98, 0, 0, 1, 0, 1]

/-- The first query gets a header that counts a record and has none, and the second one the
    address that was configured for `ab`. -/
theorem replies_not_answered :
    ¬ Always step Answered World.zeroed (asked star ednsQuery) ∧
      ¬ Always step Answered World.zeroed (asked [97, 98] nestedQuery) := by
  constructor
  · have hread : (Message.read ednsQuery).any
        (fun q => !q.flags.qr && q.additional.length == 1) = true := by decide +kernel
    -- a query with an additional record, as resolvers send it
    obtain ⟨q, hq, hfields⟩ := (Option.any_eq_true _ _).1 hread
    rw [Bool.and_eq_true, Bool.not_eq_true', beq_iff_eq] at hfields
    refine not_answered _ _ q (by decide) hq hfields.1 (Or.inl ?_)
    intro hnone
    rw [hnone.2.2] at hfields
    cases hfields.2
  -- a name in which `www.` appears once the first is cut out
  · have hread : (Message.read nestedQuery).any
        (fun q => !q.flags.qr && q.flags.opcode == 0 &&
          q.questions.map (·.name.text) == [[97, 119, 119, 119, 46, 98]]) = true := by
      decide +kernel
    obtain ⟨q, hq, hfields⟩ := (Option.any_eq_true _ _).1 hread
    rw [Bool.and_eq_true, Bool.and_eq_true, Bool.not_eq_true', beq_iff_eq, beq_iff_eq] at hfields
    obtain ⟨x, hx, hname⟩ := List.map_eq_singleton_iff.1 hfields.2
    refine not_answered _ _ q (by decide) hq hfields.1.1 (Or.inr ⟨x, hfields.1.2, hx, ?_⟩)
    rw [hname]
    intro htold
    have hmatch := htold (by decide +kernel)
    exact absurd hmatch (by decide +kernel)

end Dns

end ArduinoBeken
