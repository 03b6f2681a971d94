import ArduinoBeken.WiFi.Udp

/-!
# What a UDP Object Sends

A packet is what is written between `beginPacket` and `endPacket`. A write that
finds the buffer full sends the buffer first. If `endPacket` returns 1, all
that was written should have been handed to the stack, for the destination given
to `beginPacket`, and no byte of a packet that was ended should be handed over
again.

Three things go wrong. A write does not look at the result of its send, so
`endPacket` reports success for a packet of which a part is lost. The
destination is kept in the fields that `parsePacket` overwrites. And
`endPacket` does not empty the buffer, which only `beginPacket` does. Each is a
debt that the next `beginPacket` pays, and `lawful_iff` says that the law holds
along a run just if each is paid before it is due.

## Main definitions

* `Packet.Delivered`, `Delivers`, `Unmixed`: The laws.
* `Drops`, `Misdirects`, `Diverts`, `Leaves`: The steps that leave a debt.
* `Closes`, `Returns`, `Empties`: The steps that pay it.

## Theorems

* `begin_cases`, `writesTo_of_buffer`: What the calls do.
* `complete_iff`, `directed_iff`, `aimed_iff`, `unmixed_iff`: The single debts.
* `lawful_iff`: The laws along a run.
-/

namespace ArduinoBeken

namespace WiFi.Udp

/-! ### The laws -/

/-- The bytes handed to the stack, in order. -/
def Packet.bytes (p : Packet) : List UInt8 :=
  p.handed.flatMap Datagram.bytes

/-- All that was written was handed over in order, in datagrams that fit, for the
destination. -/
structure Packet.Delivered (p : Packet) : Prop where
  complete : p.bytes = p.written
  addressed : ∀ d ∈ p.handed, d.peer = p.dest
  fits : ∀ d ∈ p.handed, d.bytes.length ≤ kUdpBufferSize

/-- The datagram that a step hands to the stack. -/
def hands (w : World) : Event → Option Datagram
  | .write _ sent => if w.udp.isFull && w.udp.endPacket sent then some w.udp.datagram else none
  | .endPacket sent => if w.udp.endPacket sent then some w.udp.datagram else none
  | _ => none

/-- The step is an `endPacket` that returns 1 for the packet. -/
def Reports (w : World) (e : Event) (p : Packet) : Prop :=
  w.packet = some p ∧ ∃ sent, e = .endPacket sent ∧ w.udp.endPacket sent = true

/-- What `endPacket` reports is delivered. -/
def Delivers (w : World) (e : Event) : Prop :=
  ∀ p, Reports w e p → { p with handed := p.handed ++ [w.udp.datagram] : Packet }.Delivered

/-- What is handed over has no byte of a packet that was ended. -/
def Unmixed (w : World) (e : Event) : Prop :=
  (hands w e).isSome = true → w.stale = 0

/-- Both laws, at an event. -/
def Lawful (w : World) (e : Event) : Prop :=
  Delivers w e ∧ Unmixed w e

/-! ### Conditions -/

/-- `beginPacket` returns 1. -/
def Begins (w : World) (e : Event) : Prop :=
  (∃ target alloc socket, e = .beginPacket target alloc socket) ∧ (turn w e).2.ret = 1

/-- The destination that a step sets. -/
def newRemote (w : World) : Event → Option Endpoint
  | .parsePacket alloc =>
    if w.udp.rx_buffer.isNone && alloc && w.udp.udp_server then w.waiting.head?.map Datagram.peer
    else none
  | .beginPacket (.address dest) _ _ => some dest
  | .beginPacket (.host (some ip) port) _ _ => some ⟨ip, port⟩
  | _ => none

/-- A write finds the buffer full, and its send fails. -/
def FailsToFlush (w : World) (e : Event) : Prop :=
  ∃ data sent, e = .write data sent ∧ w.udp.isFull = true ∧ w.udp.endPacket sent = false

/-- Such a write is made in an open packet. -/
def Drops (w : World) (e : Event) : Prop :=
  FailsToFlush w e ∧ w.packet.isSome = true

/-- A write hands a full buffer of an open packet over for another
destination. -/
def Misdirects (w : World) (e : Event) : Prop :=
  ∃ p data sent, w.packet = some p ∧ e = .write data sent ∧ w.udp.isFull = true ∧
    w.udp.endPacket sent = true ∧ w.udp.remote ≠ p.dest

/-- A step other than the beginning of a new packet sets another destination than
that of the open packet. -/
def Diverts (w : World) (e : Event) : Prop :=
  ¬Begins w e ∧ ∃ p r, w.packet = some p ∧ newRemote w e = some r ∧ r ≠ p.dest

/-- `endPacket` is called with bytes in the buffer. -/
def Leaves (w : World) (e : Event) : Prop :=
  (∃ sent, e = .endPacket sent) ∧ w.udp.tx_buffer.getD [] ≠ []

/-- A new packet begins, or `endPacket` returns 0. -/
def Closes (w : World) (e : Event) : Prop :=
  Begins w e ∨ ∃ sent, e = .endPacket sent ∧ w.udp.endPacket sent = false

/-- The packet is closed, or its destination is set again. -/
def Returns (w : World) (e : Event) : Prop :=
  Closes w e ∨ ∃ p, w.packet = some p ∧ newRemote w e = some p.dest

/-- `beginPacket` empties the buffer, or a send that fails does. -/
def Empties (w : World) (e : Event) : Prop :=
  ((∃ target alloc socket, e = .beginPacket target alloc socket) ∧
    (step w e).udp.tx_buffer = some []) ∨ FailsToFlush w e

/-- The step is no `endPacket` that returns 1 for an open packet. -/
def Unreported (w : World) (e : Event) : Prop :=
  ∀ p, ¬Reports w e p

/-- Nothing is handed over. -/
def HandsNothing (w : World) (e : Event) : Prop :=
  hands w e = none

/-! ### What the steps do -/

/-- The buffer is not overfull, and an open packet has a socket and a buffer, with
nothing in it that was not written. -/
structure Booked (w : World) : Prop where
  fits : ∀ buf, w.udp.tx_buffer = some buf → buf.length ≤ kUdpBufferSize
  opened : ∀ p, w.packet = some p → w.udp.udp_server = true ∧
    ∃ buf, w.udp.tx_buffer = some buf ∧ (p.bytes ++ buf).Sublist p.written
  handed : ∀ p, w.packet = some p → ∀ d ∈ p.handed, d.bytes.length ≤ kUdpBufferSize
  stale : w.stale ≤ (w.udp.tx_buffer.getD []).length

/-- The sending side behind a step of the receiving side. -/
structure SameSend (w w' : World) (r : Option Endpoint) : Prop where
  packet : w'.packet = w.packet
  stale : w'.stale = w.stale
  tx_buffer : w'.udp.tx_buffer = w.udp.tx_buffer
  udp_server : w'.udp.udp_server = w.udp.udp_server
  remote : w'.udp.remote = r.getD w.udp.remote

theorem sameSend_step (w : World) (e : Event) (h : e.sending = false) :
    SameSend w (step w e) (newRemote w e) := by
  -- the receiving calls leave the buffer that is sent
  cases e with
  | arrive d =>
      simp only [step, turn]
      split
      · exact ⟨rfl, rfl, rfl, rfl, rfl⟩
      · exact ⟨rfl, rfl, rfl, rfl, rfl⟩
  -- a packet that is taken sets the remote address, and only then
  | parsePacket alloc =>
      rcases w with ⟨⟨server, remote, tx, rx, len, pos⟩, waiting, packet, stale⟩
      cases rx with
      | some buf => exact ⟨rfl, rfl, rfl, rfl, rfl⟩
      | none =>
          cases alloc with
          | false => exact ⟨rfl, rfl, rfl, rfl, rfl⟩
          | true =>
              cases server with
              | false => exact ⟨rfl, rfl, rfl, rfl, rfl⟩
              | true =>
                  cases waiting with
                  | nil => exact ⟨rfl, rfl, rfl, rfl, rfl⟩
                  | cons d waiting => exact ⟨rfl, rfl, rfl, rfl, rfl⟩
  | available => exact ⟨rfl, rfl, rfl, rfl, rfl⟩
  | read =>
      simp only [step, turn, WiFiUDP.read]
      split
      · exact ⟨rfl, rfl, rfl, rfl, rfl⟩
      · split
        · exact ⟨rfl, rfl, rfl, rfl, rfl⟩
        · exact ⟨rfl, rfl, rfl, rfl, rfl⟩
  | readInto given len =>
      simp only [step, turn, WiFiUDP.readInto]
      split
      · exact ⟨rfl, rfl, rfl, rfl, rfl⟩
      · split
        · exact ⟨rfl, rfl, rfl, rfl, rfl⟩
        · split
          · exact ⟨rfl, rfl, rfl, rfl, rfl⟩
          · exact ⟨rfl, rfl, rfl, rfl, rfl⟩
  | peek => exact ⟨rfl, rfl, rfl, rfl, rfl⟩
  | flush => exact ⟨rfl, rfl, rfl, rfl, rfl⟩
  | beginPacket target alloc socket => exact absurd h (fun hno => nomatch hno)
  | write data sent => exact absurd h (fun hno => nomatch hno)
  | endPacket sent => exact absurd h (fun hno => nomatch hno)

/-- `beginPacket` that returns 1, with the destination it uses. -/
structure BeginsAt (w' : World) (dest : Endpoint) : Prop where
  packet : w'.packet = some { dest }
  stale : w'.stale = 0
  tx_buffer : w'.udp.tx_buffer = some []
  udp_server : w'.udp.udp_server = true
  remote : w'.udp.remote = dest

/-- `beginPacket` that returns 0. It gets to the buffer only if the socket
fails. -/
structure FailsAt (w w' : World) (dest : Endpoint) : Prop where
  packet : w'.packet = w.packet
  remote : w'.udp.remote = dest
  udp_server : w'.udp.udp_server = w.udp.udp_server
  buffer : (w'.udp.tx_buffer = w.udp.tx_buffer ∧ w'.stale = w.stale) ∨
    (w'.udp.tx_buffer = some [] ∧ w'.stale = 0 ∧ w.udp.udp_server = false)

theorem beginPacket_cases (w : World) (alloc socket : Bool)
    (hstale : w.stale ≤ (w.udp.tx_buffer.getD []).length) :
    ((w.beginPacket alloc socket).2.ret = 1 ∧
      BeginsAt (w.beginPacket alloc socket).1 w.udp.remote) ∨
    ((w.beginPacket alloc socket).2.ret = 0 ∧
      FailsAt w (w.beginPacket alloc socket).1 w.udp.remote) := by
  -- no port or no memory: the object is as it was
  have hfails : w.udp.beginPacket alloc socket = (w.udp, false) →
      (w.beginPacket alloc socket).2.ret = 0 ∧
        FailsAt w (w.beginPacket alloc socket).1 w.udp.remote := by
    intro hbegin
    simp only [World.beginPacket, hbegin]
    have hkept : (if w.udp.tx_buffer = some [] then 0 else w.stale) = w.stale := by
      -- Nothing is stale in an empty buffer.
      split
      · next hempty =>
        rw [hempty] at hstale
        exact (Nat.le_zero.1 hstale).symm
      · rfl
    exact ⟨rfl, rfl, rfl, rfl, Or.inl ⟨rfl, hkept⟩⟩
  -- the port is looked at first, then the memory, then the socket
  by_cases hport : w.udp.remote.port = 0
  · exact Or.inr (hfails (by rw [WiFiUDP.beginPacket, if_pos hport]))
  · by_cases hmem : (w.udp.tx_buffer.isNone && !alloc) = true
    · exact Or.inr (hfails (by rw [WiFiUDP.beginPacket, if_neg hport, if_pos hmem]))
    · by_cases hopen : w.udp.udp_server = true
      · have hbegin : w.udp.beginPacket alloc socket =
            ({ w.udp with tx_buffer := some [] }, true) := by
          rw [WiFiUDP.beginPacket, if_neg hport, if_neg hmem, if_pos hopen]
        left
        simp only [World.beginPacket, hbegin]
        exact ⟨rfl, rfl, rfl, rfl, hopen, rfl⟩
      · have hbegin : w.udp.beginPacket alloc socket =
            ({ w.udp with tx_buffer := some [], udp_server := socket }, socket) := by
          rw [WiFiUDP.beginPacket, if_neg hport, if_neg hmem, if_neg hopen]
        rw [Bool.not_eq_true] at hopen
        simp only [World.beginPacket, hbegin]
        -- without a socket the packet is not begun, though its buffer is emptied
        cases socket with
        | true => exact Or.inl ⟨rfl, rfl, rfl, rfl, rfl, rfl⟩
        | false => exact Or.inr ⟨rfl, rfl, rfl, hopen.symm, Or.inr ⟨rfl, rfl, hopen⟩⟩

/-- A packet begins, or nothing but the destination changes, and the buffer if
there is no socket. -/
theorem begin_cases (w : World) (target : Target) (alloc socket : Bool)
    (hstale : w.stale ≤ (w.udp.tx_buffer.getD []).length) :
    (Begins w (.beginPacket target alloc socket) ∧
      BeginsAt (step w (.beginPacket target alloc socket))
        ((newRemote w (.beginPacket target alloc socket)).getD w.udp.remote)) ∨
    (¬Begins w (.beginPacket target alloc socket) ∧
      FailsAt w (step w (.beginPacket target alloc socket))
        ((newRemote w (.beginPacket target alloc socket)).getD w.udp.remote)) := by
  -- where the destination comes from makes no difference
  have hbegin : ∀ dest : Endpoint,
      turn w (.beginPacket target alloc socket) =
        { w with udp := { w.udp with remote := dest } }.beginPacket alloc socket →
      (newRemote w (.beginPacket target alloc socket)).getD w.udp.remote = dest →
      (Begins w (.beginPacket target alloc socket) ∧
        BeginsAt (step w (.beginPacket target alloc socket)) dest) ∨
      (¬Begins w (.beginPacket target alloc socket) ∧
        FailsAt w (step w (.beginPacket target alloc socket)) dest) := by
    intro dest hturn _
    rcases beginPacket_cases { w with udp := { w.udp with remote := dest } } alloc socket
        hstale with
      ⟨hret, hbegins⟩ | ⟨hret, hfails⟩
    · refine Or.inl ⟨⟨⟨target, alloc, socket, rfl⟩, by rw [hturn]; exact hret⟩, ?_⟩
      rw [step, hturn]
      exact hbegins
    · refine Or.inr ⟨?_, ?_⟩
      · rintro ⟨-, hone⟩
        rw [hturn, hret] at hone
        exact absurd hone (by decide)
      · rw [step, hturn]
        exact ⟨hfails.packet, hfails.remote, hfails.udp_server, hfails.buffer⟩
  -- a name that is not found begins nothing
  cases target with
  | same => exact hbegin w.udp.remote rfl rfl
  | address dest => exact hbegin dest rfl rfl
  | host found port =>
      cases found with
      | some ip => exact hbegin ⟨ip, port⟩ rfl rfl
      | none =>
          refine Or.inr ⟨?_, rfl, rfl, rfl, Or.inl ⟨rfl, rfl⟩⟩
          rintro ⟨-, hone⟩
          change (0 : Int) = 1 at hone
          omega

/-- A write puts a byte into the buffer, behind the send of a full one. -/
structure WritesTo (w w' : World) (data : UInt8) (sent : Bool) (buf : List UInt8) : Prop where
  tx_buffer : w'.udp.tx_buffer = some ((if w.udp.isFull then [] else buf) ++ [data])
  packet : w'.packet = w.packet.map fun p =>
    { p with
      written := p.written ++ [data]
      handed := p.handed ++
        if w.udp.isFull && w.udp.endPacket sent then [⟨w.udp.remote, buf⟩] else [] }
  stale : w'.stale = if w.udp.isFull then 0 else w.stale
  udp_server : w'.udp.udp_server = w.udp.udp_server
  remote : w'.udp.remote = w.udp.remote

theorem writesTo_of_buffer (w : World) (data : UInt8) (sent : Bool) (buf : List UInt8)
    (h : w.udp.tx_buffer = some buf) : WritesTo w (step w (.write data sent)) data sent buf := by
  have hwrite : w.udp.write data =
      { w.udp with tx_buffer := some ((if w.udp.isFull then [] else buf) ++ [data]) } := by
    rw [WiFiUDP.write, h]
  have hdatagram : w.udp.datagram = ⟨w.udp.remote, buf⟩ := by
    rw [WiFiUDP.datagram, h]
    rfl
  refine ⟨?_, ?_, rfl, ?_, ?_⟩
  · simp only [step, turn, World.write, hwrite]
  · simp only [step, turn, World.write, hdatagram]
  · simp only [step, turn, World.write, hwrite]
  · simp only [step, turn, World.write, hwrite]

/-- A full buffer has as many bytes as fit. -/
theorem length_of_full (u : WiFiUDP) (buf : List UInt8) (h : u.tx_buffer = some buf)
    (hfull : u.isFull = true) : buf.length = kUdpBufferSize := by
  rw [WiFiUDP.isFull, h, Option.getD_some] at hfull
  exact of_decide_eq_true hfull

theorem length_of_not_full (u : WiFiUDP) (buf : List UInt8) (h : u.tx_buffer = some buf)
    (hfits : buf.length ≤ kUdpBufferSize) (hfull : u.isFull = false) :
    buf.length < kUdpBufferSize := by
  rw [WiFiUDP.isFull, h, Option.getD_some] at hfull
  have hne := of_decide_eq_false hfull
  omega

theorem booked_of_same (w w' : World) (r : Option Endpoint) (h : SameSend w w' r)
    (hw : Booked w) : Booked w' := by
  refine ⟨?_, ?_, ?_, ?_⟩
  · rw [h.tx_buffer]
    exact hw.fits
  · rw [h.packet, h.tx_buffer, h.udp_server]
    exact hw.opened
  · rw [h.packet]
    exact hw.handed
  · rw [h.stale, h.tx_buffer]
    exact hw.stale

/-- What was handed over and is in the buffer stays what was written, but for
what a send has lost. -/
theorem booked_write (w : World) (data : UInt8) (sent : Bool) (hw : Booked w) :
    Booked (step w (.write data sent)) := by
  -- by the buffer: without one the byte is nowhere, and no packet is open
  cases hbuf : w.udp.tx_buffer with
  | none =>
      have hnone : w.packet = none := by
        cases hp : w.packet with
        | none => rfl
        | some p =>
            rcases (hw.opened p hp).2 with ⟨buf, hsome, -⟩
            exact absurd (hbuf.symm.trans hsome) (fun hno => nomatch hno)
      have hwrite : w.udp.write data = w.udp := by rw [WiFiUDP.write, hbuf]
      have hstale := hw.stale
      rw [hbuf, Option.getD_none, List.length_nil, Nat.le_zero] at hstale
      refine ⟨?_, ?_, ?_, ?_⟩
      · intro buf hsome
        simp only [step, turn, World.write, hwrite, hbuf] at hsome
        exact absurd hsome (fun hno => nomatch hno)
      · intro p hp
        simp only [step, turn, World.write, hnone] at hp
        exact absurd hp (fun hno => nomatch hno)
      · intro p hp
        simp only [step, turn, World.write, hnone] at hp
        exact absurd hp (fun hno => nomatch hno)
      · simp only [step, turn, World.write, hstale, ite_self]
        exact Nat.zero_le _
  | some buf =>
      have hto := writesTo_of_buffer w data sent buf hbuf
      have hfits := hw.fits buf hbuf
      have hstale := hw.stale
      rw [hbuf, Option.getD_some] at hstale
      -- the buffer is sent when it is full, and the byte goes behind what is left
      refine ⟨?_, ?_, ?_, ?_⟩
      · intro buf' hbuf'
        rw [hto.tx_buffer] at hbuf'
        rw [← Option.some.inj hbuf', List.length_append, List.length_singleton]
        split
        · rw [List.length_nil, kUdpBufferSize]
          omega
        · next hfull =>
          rw [Bool.not_eq_true] at hfull
          exact length_of_not_full w.udp buf hbuf hfits hfull
      · intro p hp
        rw [hto.packet] at hp
        rcases Option.map_eq_some_iff.1 hp with ⟨q, hq, rfl⟩
        rcases hw.opened q hq with ⟨hopen, buf', hbuf', hsub⟩
        rw [hbuf] at hbuf'
        rw [← Option.some.inj hbuf'] at hsub
        refine ⟨hto.udp_server.trans hopen, _, hto.tx_buffer, ?_⟩
        rw [← List.append_assoc]
        refine List.Sublist.append ?_ (List.Sublist.refl _)
        -- The bytes before this one: handed over, lost, or still in the buffer.
        simp only [Packet.bytes, List.flatMap_append]
        cases hfull : w.udp.isFull with
        | false =>
            simp only [Bool.false_and, Bool.false_eq_true, if_false, List.flatMap_nil,
              List.append_nil]
            exact hsub
        | true =>
            cases w.udp.endPacket sent with
            | true =>
                simp only [Bool.and_self, if_true, List.append_nil, List.flatMap_cons,
                  List.flatMap_nil]
                exact hsub
            | false =>
                simp only [Bool.and_false, Bool.false_eq_true, if_false, if_true,
                  List.flatMap_nil, List.append_nil]
                exact (List.sublist_append_left _ _).trans hsub
      -- what was handed over is not taken back
      · intro p hp
        rw [hto.packet] at hp
        rcases Option.map_eq_some_iff.1 hp with ⟨q, hq, rfl⟩
        intro d hd
        rcases List.mem_append.1 hd with hold | hnew
        · exact hw.handed q hq d hold
        · split at hnew
          · rw [List.mem_singleton.1 hnew]
            exact hfits
          · exact absurd hnew List.not_mem_nil
      · rw [hto.stale, hto.tx_buffer, Option.getD_some, List.length_append, List.length_singleton]
        split
        · omega
        · omega

theorem booked_step (w : World) (e : Event) (hw : Booked w) : Booked (step w e) := by
  -- the receiving calls do not concern the packet
  by_cases hsend : e.sending = false
  · exact booked_of_same w _ _ (sameSend_step w e hsend) hw
  · cases e with
    | beginPacket target alloc socket =>
        -- begun or not, there is nothing left of the packet before
        rcases begin_cases w target alloc socket hw.stale with ⟨-, hb⟩ | ⟨-, hf⟩
        · refine ⟨?_, ?_, ?_, ?_⟩
          · intro buf hbuf
            rw [hb.tx_buffer] at hbuf
            rw [← Option.some.inj hbuf]
            exact Nat.zero_le _
          · intro p hp
            rw [hb.packet] at hp
            rw [← Option.some.inj hp]
            exact ⟨hb.udp_server, [], hb.tx_buffer, List.Sublist.refl _⟩
          · intro p hp
            rw [hb.packet] at hp
            rw [← Option.some.inj hp]
            exact fun d hd => absurd hd List.not_mem_nil
          · rw [hb.stale]
            exact Nat.zero_le _
        -- a start that fails leaves the buffer, or empties it where no socket is
        · rcases hf.buffer with ⟨htx, hstale⟩ | ⟨htx, hstale, hclosed⟩
          · refine ⟨?_, ?_, ?_, ?_⟩
            · rw [htx]
              exact hw.fits
            · rw [hf.packet, hf.udp_server, htx]
              exact hw.opened
            · rw [hf.packet]
              exact hw.handed
            · rw [hstale, htx]
              exact hw.stale
          · -- Without a socket no packet is open.
            have hnone : ∀ p, w.packet ≠ some p := by
              intro p hp
              exact absurd ((hw.opened p hp).1.symm.trans hclosed) (by decide)
            refine ⟨?_, ?_, ?_, ?_⟩
            · intro buf hbuf
              rw [htx] at hbuf
              rw [← Option.some.inj hbuf]
              exact Nat.zero_le _
            · intro p hp
              exact absurd (hf.packet ▸ hp) (hnone p)
            · intro p hp
              exact absurd (hf.packet ▸ hp) (hnone p)
            · rw [hstale]
              exact Nat.zero_le _
    | write data sent => exact booked_write w data sent hw
    -- the end of the packet closes the books
    | endPacket sent =>
        refine ⟨hw.fits, ?_, ?_, Nat.le_refl _⟩
        · exact fun p hp => absurd hp (fun hno => nomatch hno)
        · exact fun p hp => absurd hp (fun hno => nomatch hno)
    | _ => exact absurd rfl hsend

theorem booked_new (begun : Bool) : Booked (.new begun) := by
  refine ⟨?_, fun p hp => absurd hp (fun hno => nomatch hno),
    fun p hp => absurd hp (fun hno => nomatch hno), Nat.zero_le _⟩
  intro buf hbuf
  simp only [World.new] at hbuf
  split at hbuf
  · rw [← Option.some.inj hbuf]
    exact Nat.zero_le _
  · exact absurd hbuf (fun hno => nomatch hno)

/-! ### Open packets -/

/-- What a step does with a packet: it leaves none open, begins one, leaves the
packet and the buffer alone, or writes. -/
theorem step_cases (w : World) (e : Event) (hw : Booked w) :
    ((step w e).packet = none ∧ (w.packet = none ∨ ∃ sent, e = .endPacket sent)) ∨
    (Begins w e ∧ ∃ dest, BeginsAt (step w e) dest) ∨
    (∃ p, w.packet = some p ∧ ¬Begins w e ∧ (step w e).packet = some p ∧
      (step w e).udp.tx_buffer = w.udp.tx_buffer ∧
      (step w e).udp.remote = (newRemote w e).getD w.udp.remote) ∨
    (∃ p data sent buf, w.packet = some p ∧ e = .write data sent ∧ w.udp.tx_buffer = some buf ∧
      WritesTo w (step w e) data sent buf) := by
  -- no packet before and after, a new one, one untouched, one written to
  by_cases hsend : e.sending = false
  · have hsame := sameSend_step w e hsend
    cases hp : w.packet with
    | none => exact Or.inl ⟨hsame.packet.trans hp, Or.inl rfl⟩
    | some p =>
        refine Or.inr (Or.inr (Or.inl ⟨p, rfl, ?_, hsame.packet.trans hp, hsame.tx_buffer,
          hsame.remote⟩))
        rintro ⟨⟨target, alloc, socket, rfl⟩, -⟩
        exact absurd hsend (fun hno => nomatch hno)
  · cases e with
    | beginPacket target alloc socket =>
        rcases begin_cases w target alloc socket hw.stale with ⟨hbegins, hb⟩ | ⟨hnot, hf⟩
        · exact Or.inr (Or.inl ⟨hbegins, _, hb⟩)
        · cases hp : w.packet with
          | none => exact Or.inl ⟨hf.packet.trans hp, Or.inl rfl⟩
          | some p =>
              -- a packet that is open has a socket and a buffer, and the buffer stays
              rcases hf.buffer with ⟨htx, -⟩ | ⟨-, -, hclosed⟩
              · exact Or.inr (Or.inr (Or.inl ⟨p, rfl, hnot, hf.packet.trans hp, htx, hf.remote⟩))
              · exact absurd ((hw.opened p hp).1.symm.trans hclosed) (by decide)
    | write data sent =>
        cases hp : w.packet with
        | none =>
            refine Or.inl ⟨?_, Or.inl rfl⟩
            simp only [step, turn, World.write, hp]
            rfl
        | some p =>
            rcases (hw.opened p hp).2 with ⟨buf, hbuf, -⟩
            exact Or.inr (Or.inr (Or.inr ⟨p, data, sent, buf, rfl, rfl, hbuf,
              writesTo_of_buffer w data sent buf hbuf⟩))
    | endPacket sent => exact Or.inl ⟨rfl, Or.inr ⟨sent, rfl⟩⟩
    | _ => exact absurd rfl hsend

/-- A step that closes a packet reports none, and leaves none or a new one. -/
theorem closes_cases (w : World) (e : Event) (hw : Booked w) (h : Closes w e) :
    Unreported w e ∧ ((step w e).packet = none ∨ ∃ dest, BeginsAt (step w e) dest) := by
  rcases h with hbegins | ⟨sent, rfl, hfails⟩
  · rcases hbegins with ⟨⟨target, alloc, socket, rfl⟩, hret⟩
    refine ⟨?_, ?_⟩
    · rintro p ⟨-, sent, heq, -⟩
      exact absurd heq (fun hno => nomatch hno)
    · rcases begin_cases w target alloc socket hw.stale with ⟨-, hb⟩ | ⟨hnot, -⟩
      · exact Or.inr ⟨_, hb⟩
      · exact absurd ⟨⟨target, alloc, socket, rfl⟩, hret⟩ hnot
  · refine ⟨?_, Or.inl rfl⟩
    rintro p ⟨-, sent', heq, hok⟩
    cases heq
    exact absurd (hfails.symm.trans hok) (by decide)

/-- An `endPacket` closes the packet or reports it. -/
theorem closes_or_reports (w : World) (sent : Bool) (p : Packet) (hp : w.packet = some p) :
    Closes w (.endPacket sent) ∨ Reports w (.endPacket sent) p := by
  cases hok : w.udp.endPacket sent with
  | false => exact Or.inl (Or.inr ⟨sent, rfl, hok⟩)
  | true => exact Or.inr ⟨hp, sent, rfl, hok⟩

/-- A property of the open packet, which a packet has when it begins, holds along
a run at each `endPacket` that reports one exactly if each step that breaks it
is followed by one that restores it before the next report. -/
theorem packet_iff (J : World → Packet → Prop) (T : World → Event → Prop)
    (Q : World → Event → Prop)
    (hbegin : ∀ w dest, BeginsAt w dest → J w { dest })
    (hkeep : ∀ w e p, Booked w → w.packet = some p → J w p → ¬T w e →
      ∀ p', (step w e).packet = some p' → ¬Begins w e → J (step w e) p')
    (hQ : ∀ w e, Booked w → Q w e → Closes w e ∨ (Unreported w e ∧
      ∀ p', (step w e).packet = some p' → J (step w e) p'))
    (hstays : ∀ w e p, Booked w → w.packet = some p → ¬J w p → ¬Q w e →
      ∀ p', (step w e).packet = some p' → ¬J (step w e) p')
    (hcloses : ∀ w e, Closes w e → Q w e)
    (howes : ∀ w e, Booked w → T w e →
      ∃ p', (step w e).packet = some p' ∧ ¬J (step w e) p')
    (begun : Bool) (es : List Event) :
    EventRun.Always step (fun w e => ∀ p, Reports w e p → J w p) (.new begun) es ↔
      EventRun.Followed step T (EventRun.Unless step Unreported Q) (.new begun) es := by
  have hall : EventRun.Always step (fun _ _ => True) (.new begun) es :=
    EventRun.always_of_forall (fun _ _ => trivial) _ _
  refine EventRun.always_iff_followed (I := Booked)
    (J := fun w => ∀ p, w.packet = some p → J w p)
    (fun w e hw _ => booked_step w e hw) ?_ ?_ ?_ ?_ ?_ ?_ ?_ (booked_new begun)
    (fun p hp => absurd hp (fun hno => nomatch hno)) hall
  -- what is reported is the open packet
  · exact fun w e _ _ hj p hrep => hj p hrep.1
  · exact fun w e _ _ hun p hrep => absurd hrep (hun p)
  · intro w e hw _ hq
    rcases hQ w e hw hq with hcl | ⟨hun, hj⟩
    -- a step that closes leaves no packet or a new one, which is right
    · rcases closes_cases w e hw hcl with ⟨hun, hnone | ⟨dest, hb⟩⟩
      · refine ⟨fun p hrep => absurd hrep (hun p), ?_⟩
        intro p hp
        exact absurd (hnone.symm.trans hp) (fun hno => nomatch hno)
      · refine ⟨fun p hrep => absurd hrep (hun p), ?_⟩
        intro p hp
        rw [hb.packet] at hp
        rw [← Option.some.inj hp]
        exact hbegin _ dest hb
    · exact ⟨fun p hrep => absurd hrep (hun p), hj⟩
  · -- a right packet stays right as long as nothing breaks it
    intro w e hw _ hj ht p' hp'
    rcases step_cases w e hw with
      ⟨hnone, -⟩ | ⟨-, dest, hb⟩ | ⟨p, hp, hnot, -⟩ | ⟨p, data, sent, buf, hp, rfl, -⟩
    · exact absurd (hnone.symm.trans hp') (fun hno => nomatch hno)
    · rw [hb.packet] at hp'
      rw [← Option.some.inj hp']
      exact hbegin _ dest hb
    · exact hkeep w e p hw hp (hj p hp) ht p' hp' hnot
    · refine hkeep w _ p hw hp (hj p hp) ht p' hp' ?_
      rintro ⟨⟨target, alloc, socket, heq⟩, -⟩
      exact absurd heq (fun hno => nomatch hno)
  -- a packet reported wrong is the open one, and wrong
  · intro w e hw _ hj hgood p hrep
    refine hj ?_
    intro q hq
    rw [hrep.1] at hq
    rw [← Option.some.inj hq]
    exact hgood p hrep
  · -- a wrong one stays wrong until it is closed or reported
    intro w e hw _ hj hun hq hall
    rw [not_forall] at hj
    rcases hj with ⟨p, hp⟩
    rw [Classical.not_imp] at hp
    rcases step_cases w e hw with ⟨-, hnone | ⟨sent, rfl⟩⟩ | ⟨hbegins, -⟩ | ⟨q, hq', -, hsame, -⟩ |
      ⟨q, data, sent, buf, hq', rfl, -, hto⟩
    · exact absurd (hnone.symm.trans hp.1) (fun hno => nomatch hno)
    · rcases closes_or_reports w sent p hp.1 with hcl | hrep
      · exact hq (hcloses w _ hcl)
      · exact hun p hrep
    · exact hq (hcloses w e (Or.inl hbegins))
    · rw [hq'] at hp
      have heq := Option.some.inj hp.1
      exact hstays w e q hw hq' (heq ▸ hp.2) hq q hsame (hall q hsame)
    · rw [hq'] at hp
      have heq := Option.some.inj hp.1
      have hpacket := hto.packet
      rw [hq', Option.map_some] at hpacket
      exact hstays w _ q hw hq' (heq ▸ hp.2) hq _ hpacket (hall _ hpacket)
  -- a step that owes something leaves a packet that is wrong
  · intro w e hw _ ht hall
    rcases howes w e hw ht with ⟨p', hp', hnot⟩
    exact hnot (hall p' hp')

/-! ### The single debts -/

/-- Behind a write the packet is complete if it was and nothing was lost. -/
theorem complete_write_iff (w w' : World) (p p' : Packet) (data : UInt8) (sent : Bool)
    (buf : List UInt8) (hw : Booked w) (hp : w.packet = some p)
    (hbuf : w.udp.tx_buffer = some buf) (hto : WritesTo w w' data sent buf)
    (hp' : w'.packet = some p') :
    p'.bytes ++ w'.udp.tx_buffer.getD [] = p'.written ↔
      p.bytes ++ w.udp.tx_buffer.getD [] = p.written ∧
        ¬(w.udp.isFull = true ∧ w.udp.endPacket sent = false) := by
  have hpacket := hto.packet
  rw [hp, Option.map_some, hp'] at hpacket
  rw [Option.some.inj hpacket, hto.tx_buffer, hbuf, Option.getD_some, Option.getD_some]
  simp only [Packet.bytes, List.flatMap_append]
  rw [← List.append_assoc, List.append_cancel_right_eq]
  cases hfull : w.udp.isFull with
  | false =>
      simp only [Bool.false_and, Bool.false_eq_true, if_false, List.flatMap_nil, List.append_nil,
        false_and, not_false_eq_true, and_true]
  | true =>
      cases hsent : w.udp.endPacket sent with
      | true =>
          simp only [Bool.and_self, if_true, List.flatMap_cons, List.flatMap_nil, List.append_nil,
            Bool.true_eq_false, and_false, not_false_eq_true, and_true]
      | false =>
          simp only [Bool.and_false, Bool.false_eq_true, if_false, if_true, List.flatMap_nil,
            List.append_nil, and_self, not_true_eq_false, and_false, iff_false]
          -- A full buffer is gone, so what was handed over is too short.
          intro heq
          rcases (hw.opened p hp).2 with ⟨buf', hbuf', hsub⟩
          rw [hbuf] at hbuf'
          have hlength := hsub.length_le
          have hsize := length_of_full w.udp buf hbuf hfull
          rw [← Option.some.inj hbuf', ← heq, List.length_append, Packet.bytes, hsize,
            kUdpBufferSize] at hlength
          omega

theorem complete_iff (begun : Bool) (es : List Event) :
    EventRun.Always step
        (fun w e => ∀ p, Reports w e p → p.bytes ++ w.udp.tx_buffer.getD [] = p.written)
        (.new begun) es ↔
      EventRun.Followed step Drops (EventRun.Unless step Unreported Closes) (.new begun) es := by
  refine packet_iff (fun w p => p.bytes ++ w.udp.tx_buffer.getD [] = p.written) Drops Closes
    ?_ ?_ (fun w e _ h => Or.inl h) ?_ (fun w e h => h) ?_ begun es
  -- a packet just begun has nothing written and nothing in the buffer
  · intro w dest hb
    rw [hb.tx_buffer]
    rfl
  · -- An event that drops nothing keeps what was written and not yet sent.
    intro w e p hw hp hj ht p' hp' hnot
    rcases step_cases w e hw with ⟨hnone, -⟩ | ⟨hbegins, -⟩ | ⟨q, hq, -, hsame, htx, -⟩ |
      ⟨q, data, sent, buf, hq, rfl, hbuf, hto⟩
    · exact absurd (hnone.symm.trans hp') (fun hno => nomatch hno)
    · exact absurd hbegins hnot
    · rw [hp] at hq
      rw [hp'] at hsame
      rw [Option.some.inj hsame, ← Option.some.inj hq, htx]
      exact hj
    · refine (complete_write_iff w _ p p' data sent buf hw hp hbuf hto hp').2 ⟨hj, ?_⟩
      rintro ⟨hfull, hfails⟩
      exact ht ⟨⟨data, sent, rfl, hfull, hfails⟩, by rw [hp]; rfl⟩
  · -- Once bytes are missing they stay missing, unless the packet is closed.
    intro w e p hw hp hj hq p' hp'
    rcases step_cases w e hw with ⟨hnone, -⟩ | ⟨hbegins, -⟩ | ⟨q, hq', -, hsame, htx, -⟩ |
      ⟨q, data, sent, buf, hq', rfl, hbuf, hto⟩
    · exact absurd (hnone.symm.trans hp') (fun hno => nomatch hno)
    · exact absurd (Or.inl hbegins) hq
    · rw [hp] at hq'
      rw [hp'] at hsame
      rw [Option.some.inj hsame, ← Option.some.inj hq', htx]
      exact hj
    · exact fun h => hj ((complete_write_iff w _ p p' data sent buf hw hp hbuf hto hp').1 h).1
  · -- A write into a full buffer that cannot be sent drops what the buffer held.
    rintro w e hw ⟨⟨data, sent, rfl, hfull, hfails⟩, hsome⟩
    rcases Option.isSome_iff_exists.1 hsome with ⟨p, hp⟩
    rcases (hw.opened p hp).2 with ⟨buf, hbuf, -⟩
    have hto := writesTo_of_buffer w data sent buf hbuf
    have hpacket := hto.packet
    rw [hp, Option.map_some] at hpacket
    refine ⟨_, hpacket, fun h => ?_⟩
    exact ((complete_write_iff w _ p _ data sent buf hw hp hbuf hto hpacket).1 h).2 ⟨hfull, hfails⟩

/-- Behind a write what was handed over is for the destination if it was, and
this time too. -/
theorem directed_write_iff (w w' : World) (p p' : Packet) (data : UInt8) (sent : Bool)
    (buf : List UInt8) (hp : w.packet = some p) (hto : WritesTo w w' data sent buf)
    (hp' : w'.packet = some p') :
    (∀ d ∈ p'.handed, d.peer = p'.dest) ↔
      (∀ d ∈ p.handed, d.peer = p.dest) ∧
        ¬(w.udp.isFull = true ∧ w.udp.endPacket sent = true ∧ w.udp.remote ≠ p.dest) := by
  have hpacket := hto.packet
  rw [hp, Option.map_some, hp'] at hpacket
  rw [Option.some.inj hpacket]
  simp only [List.forall_mem_append]
  refine and_congr_right fun _ => ?_
  cases hfull : w.udp.isFull with
  | false =>
      simp only [Bool.false_and, Bool.false_eq_true, if_false, List.not_mem_nil, false_implies,
        implies_true, false_and, not_false_eq_true]
  | true =>
      cases hsent : w.udp.endPacket sent with
      | true =>
          simp only [Bool.and_self, if_true, List.mem_singleton, forall_eq, true_and, ne_eq,
            Decidable.not_not]
      | false =>
          simp only [Bool.and_false, Bool.false_eq_true, if_false, List.not_mem_nil, false_implies,
            implies_true, false_and, and_false, not_false_eq_true]

theorem directed_iff (begun : Bool) (es : List Event) :
    EventRun.Always step
        (fun w e => ∀ p, Reports w e p → ∀ d ∈ p.handed, d.peer = p.dest) (.new begun) es ↔
      EventRun.Followed step Misdirects (EventRun.Unless step Unreported Closes)
        (.new begun) es := by
  refine packet_iff (fun _ p => ∀ d ∈ p.handed, d.peer = p.dest) Misdirects Closes
    (fun w dest _ d hd => absurd hd List.not_mem_nil) ?_ (fun w e _ h => Or.inl h) ?_
    (fun w e h => h) ?_ begun es
  -- by the four ways a step treats the packet
  · -- An event that misdirects nothing keeps every datagram on its way to the destination.
    intro w e p hw hp hj ht p' hp' hnot
    rcases step_cases w e hw with ⟨hnone, -⟩ | ⟨hbegins, -⟩ | ⟨q, hq, -, hsame, -⟩ |
      ⟨q, data, sent, buf, hq, rfl, -, hto⟩
    · exact absurd (hnone.symm.trans hp') (fun hno => nomatch hno)
    · exact absurd hbegins hnot
    · rw [hp] at hq
      rw [hp'] at hsame
      rw [Option.some.inj hsame, ← Option.some.inj hq]
      exact hj
    · refine (directed_write_iff w _ p p' data sent buf hp hto hp').2 ⟨hj, ?_⟩
      rintro ⟨hfull, hok, hother⟩
      exact ht ⟨p, data, sent, hp, rfl, hfull, hok, hother⟩
  · -- What went elsewhere is not called back.
    intro w e p hw hp hj hq p' hp'
    rcases step_cases w e hw with ⟨hnone, -⟩ | ⟨hbegins, -⟩ | ⟨q, hq', -, hsame, -⟩ |
      ⟨q, data, sent, buf, hq', rfl, -, hto⟩
    · exact absurd (hnone.symm.trans hp') (fun hno => nomatch hno)
    · exact absurd (Or.inl hbegins) hq
    · rw [hp] at hq'
      rw [hp'] at hsame
      rw [Option.some.inj hsame, ← Option.some.inj hq']
      exact hj
    · exact fun h => hj ((directed_write_iff w _ p p' data sent buf hp hto hp').1 h).1
  · -- The full buffer is sent to the address in use, which is another one.
    rintro w e hw ⟨p, data, sent, hp, rfl, hfull, hok, hother⟩
    rcases (hw.opened p hp).2 with ⟨buf, hbuf, -⟩
    have hto := writesTo_of_buffer w data sent buf hbuf
    have hpacket := hto.packet
    rw [hp, Option.map_some] at hpacket
    refine ⟨_, hpacket, fun h => ?_⟩
    exact ((directed_write_iff w _ p _ data sent buf hp hto hpacket).1 h).2 ⟨hfull, hok, hother⟩

theorem aimed_iff (begun : Bool) (es : List Event) :
    EventRun.Always step (fun w e => ∀ p, Reports w e p → w.udp.remote = p.dest)
        (.new begun) es ↔
      EventRun.Followed step Diverts (EventRun.Unless step Unreported Returns)
        (.new begun) es := by
  refine packet_iff (fun w p => w.udp.remote = p.dest) Diverts Returns
    (fun w dest hb => hb.remote) ?_ ?_ ?_ (fun w e h => Or.inl h) ?_ begun es
  · -- The address in use stays that of the packet, unless it is diverted.
    intro w e p hw hp hj ht p' hp' hnot
    rcases step_cases w e hw with ⟨hnone, -⟩ | ⟨hbegins, -⟩ | ⟨q, hq, -, hsame, -, hremote⟩ |
      ⟨q, data, sent, buf, hq, rfl, -, hto⟩
    · exact absurd (hnone.symm.trans hp') (fun hno => nomatch hno)
    · exact absurd hbegins hnot
    · rw [hp] at hq
      rw [hp'] at hsame
      rw [Option.some.inj hsame, ← Option.some.inj hq, hremote]
      cases hr : newRemote w e with
      | none => exact hj
      | some r =>
          by_contra hother
          exact ht ⟨hnot, p, r, hp, hr, hother⟩
    · have hpacket := hto.packet
      rw [hp, Option.map_some, hp'] at hpacket
      rw [hto.remote, Option.some.inj hpacket]
      exact hj
  · -- A return restores the address, whatever it was.
    rintro w e hw (hcl | ⟨p, hp, hr⟩)
    · exact Or.inl hcl
    · refine Or.inr ⟨?_, ?_⟩
      · rintro q ⟨-, sent, rfl, -⟩
        exact absurd hr (fun hno => nomatch hno)
      · intro p' hp'
        rcases step_cases w e hw with ⟨hnone, -⟩ | ⟨-, dest, hb⟩ | ⟨q, hq, -, hsame, -, hremote⟩ |
          ⟨q, data, sent, buf, hq, rfl, -⟩
        · exact absurd (hnone.symm.trans hp') (fun hno => nomatch hno)
        · rw [hb.packet] at hp'
          rw [← Option.some.inj hp']
          exact hb.remote
        · rw [hp] at hq
          rw [hp'] at hsame
          rw [Option.some.inj hsame, ← Option.some.inj hq, hremote, hr]
          rfl
        · exact absurd hr (fun hno => nomatch hno)
  · -- A diverted packet stays diverted, unless its address returns.
    intro w e p hw hp hj hq p' hp'
    rcases step_cases w e hw with ⟨hnone, -⟩ | ⟨hbegins, -⟩ | ⟨q, hq', -, hsame, -, hremote⟩ |
      ⟨q, data, sent, buf, hq', rfl, -, hto⟩
    · exact absurd (hnone.symm.trans hp') (fun hno => nomatch hno)
    · exact absurd (Or.inl (Or.inl hbegins)) hq
    · rw [hp] at hq'
      rw [hp'] at hsame
      rw [Option.some.inj hsame, ← Option.some.inj hq', hremote]
      cases hr : newRemote w e with
      | none => exact hj
      | some r =>
          rintro rfl
          exact hq (Or.inr ⟨p, hp, hr⟩)
    · have hpacket := hto.packet
      rw [hp, Option.map_some, hp'] at hpacket
      rw [hto.remote, Option.some.inj hpacket]
      exact hj
  · -- The new address is not that of the packet.
    rintro w e hw ⟨hnot, p, r, hp, hr, hother⟩
    rcases step_cases w e hw with ⟨-, hnone | ⟨sent, rfl⟩⟩ | ⟨hbegins, -⟩ |
      ⟨q, hq, -, hsame, -, hremote⟩ | ⟨q, data, sent, buf, hq, rfl, -⟩
    · exact absurd (hnone.symm.trans hp) (fun hno => nomatch hno)
    · exact absurd hr (fun hno => nomatch hno)
    · exact absurd hbegins hnot
    · rw [hp] at hq
      refine ⟨q, hsame, ?_⟩
      rw [hremote, hr, ← Option.some.inj hq]
      exact hother
    · exact absurd hr (fun hno => nomatch hno)

/-! ### Stale bytes -/

/-- What a step does with the stale bytes: `endPacket` leaves the buffer, a
beginning or a failed send empties it, and all else leaves it alone. -/
theorem stale_cases (w : World) (e : Event) (hw : Booked w) :
    ((∃ sent, e = .endPacket sent) ∧
      (step w e).stale = (w.udp.tx_buffer.getD []).length) ∨
    (Empties w e ∧ (step w e).stale = 0 ∧ hands w e = none) ∨
    ((hands w e).isSome = true ∧ (step w e).stale = 0 ∧ ¬Leaves w e) ∨
    (hands w e = none ∧ (step w e).stale = w.stale ∧ ¬Empties w e ∧ ¬Leaves w e) := by
  -- Only `beginPacket` and a write into a full buffer empty it.
  have hnotEmpties : e.sending = false → ¬Empties w e := by
    rintro hsend (⟨⟨target, alloc, socket, rfl⟩, -⟩ | ⟨data, sent, rfl, -⟩)
    · exact absurd hsend (fun hno => nomatch hno)
    · exact absurd hsend (fun hno => nomatch hno)
  -- Only `endPacket` leaves bytes behind.
  have hnotLeaves : (∀ sent, e ≠ .endPacket sent) → ¬Leaves w e := by
    rintro hne ⟨⟨sent, rfl⟩, -⟩
    exact hne sent rfl
  by_cases hsend : e.sending = false
  · refine Or.inr (Or.inr (Or.inr ⟨?_, (sameSend_step w e hsend).stale, hnotEmpties hsend, ?_⟩))
    · cases e with
      | write data sent => exact absurd hsend (fun hno => nomatch hno)
      | endPacket sent => exact absurd hsend (fun hno => nomatch hno)
      | _ => rfl
    · refine hnotLeaves ?_
      rintro sent rfl
      exact absurd hsend (fun hno => nomatch hno)
  · cases e with
    | beginPacket target alloc socket =>
        have hleaves := hnotLeaves (fun sent heq => nomatch heq)
        rcases begin_cases w target alloc socket hw.stale with ⟨-, hb⟩ | ⟨-, hf⟩
        · exact Or.inr (Or.inl ⟨Or.inl ⟨⟨target, alloc, socket, rfl⟩, hb.tx_buffer⟩, hb.stale, rfl⟩)
        · rcases hf.buffer with ⟨htx, hstale⟩ | ⟨htx, hstale, -⟩
          · -- A packet that could not be opened leaves the buffer, which may have been empty.
            by_cases hempty : w.udp.tx_buffer = some []
            · have hzero := hw.stale
              rw [hempty] at hzero
              exact Or.inr (Or.inl ⟨Or.inl ⟨⟨target, alloc, socket, rfl⟩, htx.trans hempty⟩,
                hstale.trans (Nat.le_zero.1 hzero), rfl⟩)
            · refine Or.inr (Or.inr (Or.inr ⟨rfl, hstale, ?_, hleaves⟩))
              rintro (⟨-, hnew⟩ | ⟨data, sent, heq, -⟩)
              · exact hempty (htx.symm.trans hnew)
              · exact absurd heq (fun hno => nomatch hno)
          · exact Or.inr (Or.inl ⟨Or.inl ⟨⟨target, alloc, socket, rfl⟩, htx⟩, hstale, rfl⟩)
    | write data sent =>
        have hstale : (step w (.write data sent)).stale =
          if w.udp.isFull then 0 else w.stale := rfl
        have hleaves := hnotLeaves (fun sent heq => nomatch heq)
        cases hfull : w.udp.isFull with
        -- There is room for the bytes, so nothing is sent.
        | false =>
            rw [hfull, if_neg Bool.false_ne_true] at hstale
            refine Or.inr (Or.inr (Or.inr ⟨?_, hstale, ?_, hleaves⟩))
            · rw [hands, hfull]
              rfl
            · rintro (⟨⟨target, alloc, socket, heq⟩, -⟩ | ⟨data', sent', heq, hfull', -⟩)
              · exact absurd heq (fun hno => nomatch hno)
              · exact absurd (hfull.symm.trans hfull') (by decide)
        | true =>
            rw [hfull, if_pos rfl] at hstale
            -- A full buffer is sent first, and is empty if that works or not.
            cases hok : w.udp.endPacket sent with
            | true =>
                refine Or.inr (Or.inr (Or.inl ⟨?_, hstale, hleaves⟩))
                rw [hands, hfull, hok]
                rfl
            | false =>
                refine Or.inr (Or.inl ⟨Or.inr ⟨data, sent, rfl, hfull, hok⟩, hstale, ?_⟩)
                rw [hands, hfull, hok]
                rfl
    | endPacket sent => exact Or.inl ⟨⟨sent, rfl⟩, rfl⟩
    | _ => exact absurd rfl hsend

theorem not_empties_endPacket (w : World) (sent : Bool) : ¬Empties w (.endPacket sent) := by
  rintro (⟨⟨target, alloc, socket, heq⟩, -⟩ | ⟨data, sent', heq, -⟩)
  · exact absurd heq (fun hno => nomatch hno)
  · exact absurd heq (fun hno => nomatch hno)

/-- Bytes that an ended packet leaves are handed over with a later one unless they
are thrown away before. -/
theorem unmixed_iff (begun : Bool) (es : List Event) :
    EventRun.Always step Unmixed (.new begun) es ↔
      EventRun.Followed step Leaves (EventRun.Unless step HandsNothing Empties)
        (.new begun) es := by
  have hidle : ∀ w e, HandsNothing w e → Unmixed w e := by
    intro w e hnone hsome
    rw [hnone] at hsome
    exact absurd hsome Bool.false_ne_true
  have hall : EventRun.Always step (fun _ _ => True) (.new begun) es :=
    EventRun.always_of_forall (fun _ _ => trivial) _ _
  refine EventRun.always_iff_followed (I := Booked) (J := fun w => w.stale = 0)
    (fun w e hw _ => booked_step w e hw) ?_ (fun w e _ _ hp => hidle w e hp) ?_ ?_ ?_ ?_ ?_
    (booked_new begun) rfl hall
  · exact fun w e _ _ hj _ => hj
  · intro w e hw _ hempties
    rcases stale_cases w e hw with
      ⟨⟨sent, rfl⟩, -⟩ | ⟨-, hzero, hnone⟩ | ⟨hsome, -⟩ | ⟨-, -, hnot, -⟩
    · exact absurd hempties (not_empties_endPacket w sent)
    · exact ⟨hidle w e hnone, hzero⟩
    · -- A step that empties the buffer hands nothing over.
      rcases hempties with ⟨⟨target, alloc, socket, rfl⟩, -⟩ | ⟨data, sent, rfl, hfull, hfails⟩
      · exact absurd hsome Bool.false_ne_true
      · rw [hands, hfull, hfails] at hsome
        exact absurd hsome Bool.false_ne_true
    · exact absurd hempties hnot
  · intro w e hw _ hj hnot
    rcases stale_cases w e hw with
      ⟨⟨sent, rfl⟩, hlen⟩ | ⟨-, hzero, -⟩ | ⟨-, hzero, -⟩ | ⟨-, hsame, -⟩
    · have hempty : w.udp.tx_buffer.getD [] = [] := by
        by_contra hne
        exact hnot ⟨⟨sent, rfl⟩, hne⟩
      rw [hlen, hempty]
      rfl
    · exact hzero
    · exact hzero
    · exact hsame.trans hj
  · intro w e _ _ hj hgood
    unfold HandsNothing
    cases hh : hands w e with
    | none => rfl
    | some d => exact absurd (hgood (by rw [hh]; rfl)) hj
  · intro w e hw _ hj hnone hnot
    rcases stale_cases w e hw with ⟨⟨sent, rfl⟩, hlen⟩ | ⟨hempties, -⟩ | ⟨hsome, -⟩ | ⟨-, hsame, -⟩
    · have hstale := hw.stale
      rw [hlen]
      omega
    · exact absurd hempties hnot
    · rw [hnone] at hsome
      exact absurd hsome Bool.false_ne_true
    · rw [hsame]
      exact hj
  · intro w e hw _ hleaves
    rcases stale_cases w e hw with ⟨-, hlen⟩ | ⟨hempties, -⟩ | ⟨-, -, hnot⟩ | ⟨-, -, -, hnot⟩
    · rw [hlen]
      exact fun hzero => hleaves.2 (List.length_eq_zero_iff.1 hzero)
    · rcases hleaves with ⟨⟨sent, rfl⟩, -⟩
      exact absurd hempties (not_empties_endPacket w sent)
    · exact absurd hleaves hnot
    · exact absurd hleaves hnot

/-! ### Runs -/

theorem delivers_iff (w : World) (e : Event) (hw : Booked w) :
    Delivers w e ↔
      (∀ p, Reports w e p → p.bytes ++ w.udp.tx_buffer.getD [] = p.written) ∧
        (∀ p, Reports w e p → ∀ d ∈ p.handed, d.peer = p.dest) ∧
          ∀ p, Reports w e p → w.udp.remote = p.dest := by
  -- The last datagram adds what is in the buffer to the bytes that were sent.
  have hbytes : ∀ p : Packet, ({ p with handed := p.handed ++ [w.udp.datagram] } : Packet).bytes =
      p.bytes ++ w.udp.tx_buffer.getD [] := by
    intro p
    simp only [Packet.bytes, List.flatMap_append, List.flatMap_cons, List.flatMap_nil,
      List.append_nil]
    rfl
  have hlast : ∀ p : Packet, w.udp.datagram ∈ p.handed ++ [w.udp.datagram] :=
    fun p => List.mem_append_right p.handed (List.mem_singleton.2 rfl)
  refine ⟨?_, ?_⟩
  · intro h
    refine ⟨?_, ?_, ?_⟩
    · intro p hp
      exact (hbytes p).symm.trans (h p hp).complete
    · intro p hp d hd
      exact (h p hp).addressed d (List.mem_append_left _ hd)
    · intro p hp
      exact (h p hp).addressed _ (hlast p)
  · rintro ⟨hcomplete, hdirected, haimed⟩ p hp
    refine ⟨(hbytes p).trans (hcomplete p hp), ?_, ?_⟩
    · intro d hd
      rcases List.mem_append.1 hd with hold | hnew
      · exact hdirected p hp d hold
      · rw [List.mem_singleton.1 hnew]
        exact haimed p hp
    · intro d hd
      rcases List.mem_append.1 hd with hold | hnew
      · exact hw.handed p hp.1 d hold
      · rw [List.mem_singleton.1 hnew]
        rcases (hw.opened p hp.1).2 with ⟨buf, hbuf, -⟩
        have hfits := hw.fits buf hbuf
        simp only [WiFiUDP.datagram, hbuf, Option.getD_some]
        exact hfits

/-- Along every run of arrivals and calls, with any results of the sends, what
`endPacket` reports is delivered and nothing stale is handed over if and only
if: no lost buffer of a packet, none sent elsewhere and no other destination set
is followed by a report before the packet is closed (or, for the last, its
destination set again), and no `endPacket` with bytes in the buffer is followed
by a send before the buffer is emptied. -/
theorem lawful_iff (begun : Bool) (es : List Event) :
    EventRun.Always step Lawful (.new begun) es ↔
      EventRun.Followed step Drops (EventRun.Unless step Unreported Closes) (.new begun) es ∧
      EventRun.Followed step Misdirects (EventRun.Unless step Unreported Closes)
        (.new begun) es ∧
      EventRun.Followed step Diverts (EventRun.Unless step Unreported Returns) (.new begun) es ∧
      EventRun.Followed step Leaves (EventRun.Unless step HandsNothing Empties)
        (.new begun) es := by
  have hsplit := EventRun.always_iff_of_inv (fun w e hw => booked_step w e hw)
    (fun w e hw => delivers_iff w e hw) (booked_new begun) es
  unfold Lawful
  rw [EventRun.always_and, hsplit, EventRun.always_and, EventRun.always_and, complete_iff,
    directed_iff, aimed_iff, unmixed_iff, and_assoc, and_assoc]

/-- A datagram from somewhere else is accepted in the middle of a packet. -/
theorem reply_diverts_packet : ¬ ∀ begun es, EventRun.Always step Lawful (.new begun) es := by
  intro hall
  have hrun := hall true [.beginPacket (.address ⟨1, 7⟩) true true, .write 65 true,
    .arrive ⟨⟨⟨2, 9⟩, [66]⟩, by decide⟩, .parsePacket true, .endPacket true]
  have hpacket : Packet.Delivered ⟨⟨1, 7⟩, [65], [⟨⟨2, 9⟩, [65]⟩]⟩ :=
    hrun.2.2.2.2.1.1 ⟨⟨1, 7⟩, [65], []⟩ ⟨rfl, true, rfl, rfl⟩
  exact absurd (hpacket.addressed _ (List.mem_singleton.2 rfl)) (by decide)

end WiFi.Udp

end ArduinoBeken
