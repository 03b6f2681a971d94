import ArduinoBeken.WiFi.Udp

/-!
# What a UDP Object Delivers

The receiving side of `WiFiUDP` is meant to be an inbox: the bytes of the
datagram that was accepted last and are still unread, and the datagrams that
wait. `parsePacket` accepts the next one as soon as no byte is unread.

The object is that inbox but for one thing. The receive buffer stands for the
unread bytes and is released by `read(buffer, len)` and `flush` only, not by
`read()`. So a datagram whose last byte was taken by `read()`, or that is empty,
keeps the next one out (`conforms_iff`).

## Main definitions

* `Inbox`, `Inbox.turn`: The inbox, and what each call means for it.
* `World.inbox`: The inbox that an object stands for.
* `Conforms`: A call does and returns what it should.
* `Exhausts`, `Releases`, `Due`: The calls that leave an empty buffer behind,
  that release it, and to which it matters.

## Theorems

* `conforms_of_not_parse`: Every call but `parsePacket` conforms.
* `conforms_due_iff`: When `parsePacket` does.
* `conforms_iff`: The object is an inbox along a run.
-/

namespace ArduinoBeken

namespace WiFi.Udp

/-- The bytes that are still to be read, and the datagrams that wait. -/
structure Inbox where
  unread : List UInt8
  waiting : List Datagram
deriving DecidableEq, Repr

/-- The value of the first byte, or -1. -/
def firstByte (bytes : List UInt8) : Int :=
  match bytes with
  | [] => -1
  | b :: _ => b.toNat

/-- What a call does to the inbox, and what it returns. Nothing arrives without
a socket. -/
def Inbox.turn (b : Inbox) (bound : Bool) : Event → Inbox × Outcome
  | .arrive d => (if bound then { b with waiting := b.waiting ++ [d.1] } else b, ⟨0, []⟩)
  | .parsePacket _ =>
    match b.unread, b.waiting with
    | [], d :: waiting => (⟨d.bytes, waiting⟩, ⟨d.bytes.length, []⟩)
    | _, _ => (b, ⟨0, []⟩)
  | .available => (b, ⟨b.unread.length, []⟩)
  | .read => ({ b with unread := b.unread.tail }, ⟨firstByte b.unread, []⟩)
  | .readInto given len =>
    if given then
      ({ b with unread := b.unread.drop len },
        ⟨(b.unread.take len).length, b.unread.take len⟩)
    else (b, ⟨0, []⟩)
  | .peek => (b, ⟨firstByte b.unread, []⟩)
  | .flush => ({ b with unread := [] }, ⟨0, []⟩)
  | _ => (b, ⟨0, []⟩)

/-- The bytes of the buffer from the position on. -/
def WiFiUDP.unread (u : WiFiUDP) : List UInt8 :=
  (u.rx_buffer.getD []).drop u.rx_pos

/-- What is left to read of a datagram, and those that wait. -/
def World.inbox (w : World) : Inbox :=
  ⟨w.udp.unread, w.waiting⟩

/-- An event does to the inbox what it should, and a call of the receiving side
returns what it should. -/
structure Conforms (w : World) (e : Event) : Prop where
  inbox : (step w e).inbox = (w.inbox.turn w.udp.udp_server e).1
  returns : e.sending = false → (turn w e).2 = (w.inbox.turn w.udp.udp_server e).2

/-! ### Conditions -/

/-- A call of `parsePacket` that should accept a datagram. -/
def Due (w : World) (e : Event) : Prop :=
  (∃ alloc, e = .parsePacket alloc) ∧ w.udp.unread = [] ∧ w.waiting ≠ []

/-- Such a call gets memory for the buffer. -/
def HasMemory (w : World) (e : Event) : Prop :=
  Due w e → e = .parsePacket true

/-- An event that is no such call. -/
def NotDue (w : World) (e : Event) : Prop :=
  ¬Due w e

/-- `read()` takes the last byte of a datagram, or an empty one is accepted. -/
def Exhausts (w : World) (e : Event) : Prop :=
  (e = .read ∧ w.udp.unread.length = 1) ∨
    (e = .parsePacket true ∧ w.udp.rx_buffer = none ∧ w.udp.udp_server = true ∧
      ∃ d, w.waiting.head? = some d ∧ d.bytes = [])

/-- `flush`, or a `read(buffer, len)` for at least one byte into a buffer. -/
def Releases (_ : World) (e : Event) : Prop :=
  e = .flush ∨ ∃ len, 0 < len ∧ e = .readInto true len

/-! ### The buffer -/

/-- The buffer has the length it says, the position is in it, and a datagram
that waits fits a buffer. -/
structure Sized (w : World) : Prop where
  buffer : ∀ buf, w.udp.rx_buffer = some buf → buf.length = w.udp.rx_len
  position : w.udp.rx_pos ≤ w.udp.rx_len
  released : w.udp.rx_buffer = none → w.udp.rx_len = 0
  waiting : ∀ d ∈ w.waiting, d.bytes.length ≤ kUdpBufferSize
  bound : w.waiting ≠ [] → w.udp.udp_server = true

/-- A buffer is held for unread bytes only. -/
def Clear (w : World) : Prop :=
  w.udp.rx_buffer = none ∨ w.udp.rx_pos < w.udp.rx_len

/-- What is unread counts from the position to the length. -/
theorem unread_length (w : World) (h : Sized w) :
    w.udp.unread.length = w.udp.rx_len - w.udp.rx_pos := by
  unfold WiFiUDP.unread
  cases hbuf : w.udp.rx_buffer with
  | none =>
      have hlen := h.released hbuf
      simp only [Option.getD_none, List.drop_nil, List.length_nil]
      omega
  | some buf =>
      rw [Option.getD_some, List.length_drop, h.buffer buf hbuf]

/-- An empty inbox with a clear buffer has no buffer. -/
theorem released_of_clear (w : World) (h : Sized w) (hclear : Clear w)
    (hunread : w.udp.unread = []) : w.udp.rx_buffer = none := by
  refine hclear.resolve_right ?_
  intro hpos
  have hlength := unread_length w h
  rw [hunread, List.length_nil] at hlength
  omega

/-- Without a buffer nothing is unread. -/
theorem unread_of_released (w : World) (h : w.udp.rx_buffer = none) : w.udp.unread = [] := by
  rw [WiFiUDP.unread, h, Option.getD_none, List.drop_nil]

/-- The byte at the position is the first one unread. -/
theorem firstByte_unread (w : World) (h : Sized w) (buf : List UInt8)
    (hbuf : w.udp.rx_buffer = some buf) (hpos : w.udp.rx_pos < w.udp.rx_len) :
    firstByte w.udp.unread = (((buf[w.udp.rx_pos]?).getD 0).toNat : Int) ∧
      w.udp.unread.tail = buf.drop (w.udp.rx_pos + 1) := by
  have hlen := h.buffer buf hbuf
  have hin : w.udp.rx_pos < buf.length := by omega
  rw [WiFiUDP.unread, hbuf, Option.getD_some, List.drop_eq_getElem_cons hin,
    List.getElem?_eq_getElem hin]
  exact ⟨rfl, rfl⟩

/-! ### Calls other than `parsePacket` -/

/-- `available` counts what is unread. -/
theorem conforms_available (w : World) (h : Sized w) : Conforms w .available := by
  refine ⟨rfl, fun _ => ?_⟩
  have hlength := unread_length w h
  have hposition := h.position
  simp only [turn, Inbox.turn, World.inbox, WiFiUDP.available]
  cases hbuf : w.udp.rx_buffer with
  | none =>
      rw [unread_of_released w hbuf]
      rfl
  | some buf =>
      rw [hlength, Int.ofNat_sub hposition]

/-- `read` gives the first unread byte. -/
theorem conforms_read (w : World) (h : Sized w) : Conforms w .read := by
  cases hbuf : w.udp.rx_buffer with
  | none =>
      -- Without a buffer nothing is unread, and both sides answer -1.
      have hunread := unread_of_released w hbuf
      have hread : w.udp.read = (w.udp, ⟨-1, []⟩) := by rw [WiFiUDP.read, hbuf]
      refine ⟨?_, fun _ => ?_⟩
      · simp only [step, turn, hread, Inbox.turn, World.inbox, hunread]
        rfl
      · simp only [turn, hread, Inbox.turn, World.inbox, hunread]
        rfl
  | some buf =>
      by_cases hpos : w.udp.rx_pos < w.udp.rx_len
      · -- The byte at the position is the first of what is unread.
        rcases firstByte_unread w h buf hbuf hpos with ⟨hfirst, htail⟩
        have hread : w.udp.read = ({ w.udp with rx_pos := w.udp.rx_pos + 1 },
            ⟨((buf[w.udp.rx_pos]?).getD 0).toNat, []⟩) := by
          simp only [WiFiUDP.read, hbuf]
          rw [if_neg (by omega)]
        refine ⟨?_, fun _ => ?_⟩
        · simp only [step, turn, hread, Inbox.turn, World.inbox, htail]
          simp only [WiFiUDP.unread, hbuf, Option.getD_some]
        · simp only [turn, hread, Inbox.turn, World.inbox, hfirst]
      · -- The position is at the end, so nothing is unread.
        have hunread : w.udp.unread = [] := by
          refine List.length_eq_zero_iff.1 ?_
          have hlength := unread_length w h
          omega
        have hread : w.udp.read = (w.udp, ⟨-1, []⟩) := by
          simp only [WiFiUDP.read, hbuf]
          rw [if_pos (by omega)]
        refine ⟨?_, fun _ => ?_⟩
        · simp only [step, turn, hread, Inbox.turn, World.inbox, hunread]
          rfl
        · simp only [turn, hread, Inbox.turn, World.inbox, hunread]
          rfl

/-- `peek` gives the first unread byte and leaves it. -/
theorem conforms_peek (w : World) (h : Sized w) : Conforms w .peek := by
  have hpeek : w.udp.peek = w.udp.read.2 := by
    unfold WiFiUDP.peek WiFiUDP.read
    cases w.udp.rx_buffer with
    | none => rfl
    | some buf =>
        simp only []
        split <;> rfl
  refine ⟨rfl, fun _ => ?_⟩
  rw [turn, hpeek]
  exact (conforms_read w h).returns rfl

/-- After `flush` nothing is unread. -/
theorem unread_flush (u : WiFiUDP) : u.flush.unread = [] := by
  rw [WiFiUDP.flush, WiFiUDP.unread, Option.getD_none, List.drop_nil]

/-- `read` into a buffer gives the first unread bytes. -/
theorem conforms_readInto (w : World) (given : Bool) (len : Nat) (h : Sized w) :
    Conforms w (.readInto given len) := by
  have hlength := unread_length w h
  -- What is not read at all: no buffer on either side, or no byte asked for.
  -- nothing asked or nothing there: both sides answer 0
  have hnone : w.udp.readInto given len = (w.udp, ⟨0, []⟩) →
      (given = true → w.udp.unread.take len = [] ∧ w.udp.unread.drop len = w.udp.unread) →
      Conforms w (.readInto given len) := by
    intro hread hempty
    cases given with
    | false =>
        refine ⟨?_, fun _ => ?_⟩
        · simp only [step, turn, hread, Inbox.turn]
          rfl
        · simp only [turn, hread, Inbox.turn]
          rfl
    | true =>
        rcases hempty rfl with ⟨htake, hdrop⟩
        refine ⟨?_, fun _ => ?_⟩
        · simp only [step, turn, hread, Inbox.turn, World.inbox, if_true, hdrop]
        · simp only [turn, hread, Inbox.turn, World.inbox, if_true, htake]
          rfl
  cases hbuf : w.udp.rx_buffer with
  | none =>
      have hunread := unread_of_released w hbuf
      refine hnone ?_ ?_
      · rw [WiFiUDP.readInto, hbuf]
      · intro _
        rw [hunread]
        exact ⟨List.take_nil, List.drop_nil⟩
  | some buf =>
      -- a null pointer, or no byte asked for
      by_cases hasked : (!given || len == 0) = true
      · refine hnone ?_ ?_
        · simp only [WiFiUDP.readInto, hbuf]
          rw [if_pos hasked]
        · intro hgiven
          rw [hgiven, Bool.not_true, Bool.false_or, beq_iff_eq] at hasked
          rw [hasked]
          exact ⟨List.take_zero, List.drop_zero⟩
      · have hgiven : given = true := by
          cases given with
          | true => rfl
          | false => exact absurd rfl hasked
        have hunread : w.udp.unread = buf.drop w.udp.rx_pos := by
          rw [WiFiUDP.unread, hbuf, Option.getD_some]
        -- The bytes copied are the first ones unread.
        have hcopied : (buf.drop w.udp.rx_pos).take (min (w.udp.rx_len - w.udp.rx_pos) len) =
            w.udp.unread.take len := by
          rw [← hlength, ← hunread, Nat.min_comm]
          exact List.take_eq_take_min.symm
        have hleft : (w.udp.readInto given len).1.unread = w.udp.unread.drop len := by
          simp only [WiFiUDP.readInto, hbuf]
          rw [if_neg hasked]
          simp only []
          -- a buffer read to its end is released, which leaves nothing unread either
          split
          · next hend =>
            rw [unread_flush]
            refine (List.drop_eq_nil_of_le ?_).symm
            rw [hlength]
            change w.udp.rx_len ≤
              w.udp.rx_pos + min (w.udp.rx_len - w.udp.rx_pos) len at hend
            omega
          · next hend =>
            change ¬w.udp.rx_len ≤
              w.udp.rx_pos + min (w.udp.rx_len - w.udp.rx_pos) len at hend
            rw [hunread]
            simp only [WiFiUDP.unread, Option.getD_some]
            rw [List.drop_drop]
            congr 1
            omega
        have hreturns : (w.udp.readInto given len).2 =
            ⟨((w.udp.unread.take len).length : Int), w.udp.unread.take len⟩ := by
          simp only [WiFiUDP.readInto, hbuf]
          rw [if_neg hasked]
          simp only [hcopied]
          rw [List.length_take, hlength, Nat.min_comm]
        subst hgiven
        refine ⟨?_, fun _ => ?_⟩
        · simp only [step, turn, Inbox.turn, World.inbox, hleft, if_true]
        · simp only [turn, hreturns, Inbox.turn, World.inbox, if_true]

/-- `flush` drops what is unread. -/
theorem conforms_flush (w : World) : Conforms w .flush := by
  refine ⟨?_, fun _ => rfl⟩
  simp only [step, turn, Inbox.turn, World.inbox, unread_flush]

/-- A datagram that arrives touches nothing of the object. -/
theorem conforms_arrive (w : World) (d : {d : Datagram // d.bytes.length ≤ kUdpBufferSize}) :
    Conforms w (.arrive d) := by
  refine ⟨?_, fun _ => rfl⟩
  simp only [step, turn, Inbox.turn, World.inbox]
  split <;> rfl

/-- The sending side leaves the receiving side alone. -/
structure SameReceive (w w' : World) : Prop where
  rx_buffer : w'.udp.rx_buffer = w.udp.rx_buffer
  rx_len : w'.udp.rx_len = w.udp.rx_len
  rx_pos : w'.udp.rx_pos = w.udp.rx_pos
  waiting : w'.waiting = w.waiting
  bound : w.udp.udp_server = true → w'.udp.udp_server = true

/-- `beginPacket` changes the socket and the transmit buffer alone. -/
theorem beginPacket_frame (u : WiFiUDP) (alloc socket : Bool) :
    ∃ udp_server tx, (u.beginPacket alloc socket).1 =
        { u with udp_server := udp_server, tx_buffer := tx } ∧
      (u.udp_server = true → udp_server = true) := by
  unfold WiFiUDP.beginPacket
  split
  · exact ⟨u.udp_server, u.tx_buffer, rfl, id⟩
  · split
    · exact ⟨u.udp_server, u.tx_buffer, rfl, id⟩
    · simp only []
      split
      · exact ⟨u.udp_server, some [], rfl, id⟩
      · next hclosed => exact ⟨socket, some [], rfl, fun hopen => absurd hopen hclosed⟩

/-- Sending leaves the receive side as it was. -/
theorem sameReceive_step (w : World) (e : Event) (h : e.sending = true) :
    SameReceive w (step w e) := by
  -- Opening a packet touches the sending side only, and may start the server.
  have hbegin : ∀ (u : WiFiUDP) (alloc socket : Bool),
      (u.beginPacket alloc socket).1.rx_buffer = u.rx_buffer ∧
        (u.beginPacket alloc socket).1.rx_len = u.rx_len ∧
        (u.beginPacket alloc socket).1.rx_pos = u.rx_pos ∧
        (u.udp_server = true → (u.beginPacket alloc socket).1.udp_server = true) := by
    intro u alloc socket
    rcases beginPacket_frame u alloc socket with ⟨server, tx, hframe, hopen⟩
    rw [hframe]
    exact ⟨rfl, rfl, rfl, hopen⟩
  cases e with
  | beginPacket target alloc socket =>
      simp only [step, turn, World.beginTo]
      split
      · -- By whatever the packet is addressed, what is received stays.
        rcases hbegin w.udp alloc socket with ⟨h₁, h₂, h₃, h₄⟩
        exact ⟨h₁, h₂, h₃, rfl, h₄⟩
      · next dest =>
        rcases hbegin { w.udp with remote := dest } alloc socket with ⟨h₁, h₂, h₃, h₄⟩
        exact ⟨h₁, h₂, h₃, rfl, h₄⟩
      · next ip port =>
        rcases hbegin { w.udp with remote := ⟨ip, port⟩ } alloc socket with ⟨h₁, h₂, h₃, h₄⟩
        exact ⟨h₁, h₂, h₃, rfl, h₄⟩
      · exact ⟨rfl, rfl, rfl, rfl, id⟩
  | write data sent =>
      simp only [step, turn, World.write, WiFiUDP.write]
      split
      · exact ⟨rfl, rfl, rfl, rfl, id⟩
      · exact ⟨rfl, rfl, rfl, rfl, id⟩
  | endPacket sent => exact ⟨rfl, rfl, rfl, rfl, id⟩
  | _ => exact absurd h Bool.false_ne_true

/-- Sending does what the receive side expects of it: nothing. -/
theorem conforms_sending (w : World) (e : Event) (h : e.sending = true) : Conforms w e := by
  have hsame := sameReceive_step w e h
  refine ⟨?_, fun hnot => absurd (h.symm.trans hnot) (by decide)⟩
  have hinbox : (step w e).inbox = w.inbox := by
    unfold World.inbox WiFiUDP.unread
    rw [hsame.rx_buffer, hsame.rx_pos, hsame.waiting]
  rw [hinbox]
  cases e with
  | beginPacket target alloc socket => rfl
  | write data sent => rfl
  | endPacket sent => rfl
  | _ => exact absurd h Bool.false_ne_true

/-! ### `parsePacket` -/

/-- A datagram is accepted, or nothing is done. -/
theorem parse_cases (w : World) (alloc : Bool) :
    (turn w (.parsePacket alloc) = (w, ⟨0, []⟩) ∧
      (w.udp.rx_buffer ≠ none ∨ alloc = false ∨ w.udp.udp_server = false ∨ w.waiting = [])) ∨
    (w.udp.rx_buffer = none ∧ alloc = true ∧ w.udp.udp_server = true ∧
      ∃ d waiting, w.waiting = d :: waiting ∧
        turn w (.parsePacket alloc) =
          ({ w with
            udp := { w.udp with
              remote := d.peer
              rx_buffer := some (d.bytes.take kUdpBufferSize)
              rx_len := (d.bytes.take kUdpBufferSize).length
              rx_pos := 0 }
            waiting := waiting }, ⟨(d.bytes.take kUdpBufferSize).length, []⟩)) := by
  simp only [turn, World.parsePacket, WiFiUDP.parsePacket]
  cases hbuf : w.udp.rx_buffer with
  -- A buffer that is not released is in the way of the next datagram.
  | some buf => exact Or.inl ⟨rfl, Or.inl (Option.some_ne_none buf)⟩
  | none =>
      cases alloc with
      | false => exact Or.inl ⟨rfl, Or.inr (Or.inl rfl)⟩
      | true =>
          cases hopen : w.udp.udp_server with
          | false => exact Or.inl ⟨rfl, Or.inr (Or.inr (Or.inl rfl))⟩
          | true =>
              cases hwait : w.waiting with
              | nil =>
                  refine Or.inl ⟨?_, Or.inr (Or.inr (Or.inr rfl))⟩
                  simp only [Option.isSome_none, Bool.false_eq_true, if_false, Bool.not_true]
                  rw [← hwait]
              -- The datagram is cut to the size of the buffer, and the reading starts at its
              -- front.
              | cons d waiting => exact Or.inr ⟨rfl, rfl, rfl, d, waiting, rfl, rfl⟩

/-- Doing nothing conforms unless a datagram is due. -/
theorem conforms_idle (w : World) (alloc : Bool)
    (hidle : turn w (.parsePacket alloc) = (w, ⟨0, []⟩)) (h : ¬Due w (.parsePacket alloc)) :
    Conforms w (.parsePacket alloc) := by
  have hspec : w.inbox.turn w.udp.udp_server (.parsePacket alloc) = (w.inbox, ⟨0, []⟩) := by
    simp only [Inbox.turn]
    split
    · next d waiting hunread hwait =>
      refine absurd ⟨⟨alloc, rfl⟩, hunread, ?_⟩ h
      intro hnil
      exact absurd (hnil.symm.trans hwait) (List.cons_ne_nil d waiting).symm
    · rfl
  refine ⟨?_, fun _ => ?_⟩
  · rw [step, hidle, hspec]
  · rw [hidle, hspec]

/-- A call that is due conforms just if it accepts. -/
theorem conforms_due_iff (w : World) (alloc : Bool) (hw : Sized w)
    (h : Due w (.parsePacket alloc)) :
    Conforms w (.parsePacket alloc) ↔ w.udp.rx_buffer = none ∧ alloc = true := by
  -- a datagram waits, and all before it was read
  rcases h with ⟨-, hunread, hwait⟩
  rcases List.exists_cons_of_ne_nil hwait with ⟨d, waiting, hcons⟩
  have hspec : w.inbox.turn w.udp.udp_server (.parsePacket alloc) =
      (⟨d.bytes, waiting⟩, ⟨d.bytes.length, []⟩) := by
    simp only [Inbox.turn, World.inbox, hunread, hcons]
  -- the buffer was there, or its memory was not, and then the datagram is not taken
  rcases parse_cases w alloc with ⟨hidle, hwhy⟩ | ⟨hbuf, halloc, -, d', waiting', hcons', hturn⟩
  · refine ⟨?_, ?_⟩
    · intro hconf
      have hinbox := hconf.inbox
      rw [step, hidle, hspec] at hinbox
      -- The datagram would have been taken from those that wait.
      have hsame : d :: waiting = waiting := hcons.symm.trans (congrArg Inbox.waiting hinbox)
      exact absurd hsame (List.cons_ne_self d waiting)
    · rintro ⟨hbuf, halloc⟩
      rcases hwhy with hb | ha | ho | hn
      · exact absurd hbuf hb
      · exact absurd (halloc.symm.trans ha) (by decide)
      · exact absurd ((hw.bound hwait).symm.trans ho) (by decide)
      · exact absurd hn hwait
  -- the datagram fits the buffer whole
  · refine ⟨fun _ => ⟨hbuf, halloc⟩, fun _ => ?_⟩
    rw [hcons] at hcons'
    have hd : d' = d := (List.cons.inj hcons').1.symm
    have hrest : waiting' = waiting := (List.cons.inj hcons').2.symm
    have hfits : d.bytes.take kUdpBufferSize = d.bytes :=
      List.take_of_length_le (hw.waiting d (hcons ▸ List.mem_cons_self))
    rw [hd, hrest, hfits] at hturn
    refine ⟨?_, fun _ => ?_⟩
    · rw [step, hturn, hspec]
      simp only [World.inbox, WiFiUDP.unread, Option.getD_some, List.drop_zero]
    · rw [hturn, hspec]

/-! ### Steps -/

/-- Every event besides `parsePacket` does what is expected. -/
theorem conforms_of_not_parse (w : World) (e : Event) (hw : Sized w)
    (h : ∀ alloc, e ≠ .parsePacket alloc) : Conforms w e := by
  cases e with
  | arrive d => exact conforms_arrive w d
  | parsePacket alloc => exact absurd rfl (h alloc)
  | available => exact conforms_available w hw
  | read => exact conforms_read w hw
  | readInto given len => exact conforms_readInto w given len hw
  | peek => exact conforms_peek w hw
  | flush => exact conforms_flush w
  | beginPacket target alloc socket => exact conforms_sending w _ rfl
  | write data sent => exact conforms_sending w _ rfl
  | endPacket sent => exact conforms_sending w _ rfl

/-- Where no datagram is due, an event does what is expected. -/
theorem conforms_of_notDue (w : World) (e : Event) (hw : Sized w) (h : NotDue w e) :
    Conforms w e := by
  by_cases hparse : ∃ alloc, e = .parsePacket alloc
  · rcases hparse with ⟨alloc, rfl⟩
    rcases parse_cases w alloc with ⟨hidle, -⟩ | ⟨hbuf, -, -, d, waiting, hcons, -⟩
    · exact conforms_idle w alloc hidle h
    · refine absurd ⟨⟨alloc, rfl⟩, unread_of_released w hbuf, ?_⟩ h
      rw [hcons]
      exact List.cons_ne_nil d waiting
  · exact conforms_of_not_parse w e hw (fun alloc heq => hparse ⟨alloc, heq⟩)

/-- A call conforms unless it is due and the buffer is held, or memory fails. -/
theorem conforms_of_clear (w : World) (e : Event) (hw : Sized w) (hmem : HasMemory w e)
    (hclear : Clear w) : Conforms w e := by
  by_cases hdue : Due w e
  · have he := hmem hdue
    subst he
    exact (conforms_due_iff w true hw hdue).2 ⟨released_of_clear w hw hclear hdue.2.1, rfl⟩
  · exact conforms_of_notDue w e hw hdue

/-- Where bytes are left over, an event does what is expected only if no datagram is due. -/
theorem notDue_of_conforms (w : World) (e : Event) (hw : Sized w) (hclear : ¬Clear w)
    (h : Conforms w e) : NotDue w e := by
  intro hdue
  rcases hdue with ⟨⟨alloc, rfl⟩, hunread, hwait⟩
  have hbuf := ((conforms_due_iff w alloc hw ⟨⟨alloc, rfl⟩, hunread, hwait⟩).1 h).1
  exact hclear (Or.inl hbuf)

/-- An event does what is expected only if the memory it needs is there. -/
theorem hasMemory_of_conforms (w : World) (e : Event) (hw : Sized w) (h : Conforms w e) :
    HasMemory w e := by
  intro hdue
  rcases hdue with ⟨⟨alloc, rfl⟩, hunread, hwait⟩
  rw [((conforms_due_iff w alloc hw ⟨⟨alloc, rfl⟩, hunread, hwait⟩).1 h).2]

/-! ### What is kept of the buffer -/

/-- The sizes depend on the receive side alone. -/
theorem sized_of_same (w w' : World) (h : SameReceive w w') (hw : Sized w) : Sized w' := by
  refine ⟨?_, ?_, ?_, ?_, ?_⟩
  · rw [h.rx_buffer, h.rx_len]
    exact hw.buffer
  · rw [h.rx_pos, h.rx_len]
    exact hw.position
  · rw [h.rx_buffer, h.rx_len]
    exact hw.released
  · rw [h.waiting]
    exact hw.waiting
  · rw [h.waiting]
    exact fun hne => h.bound (hw.bound hne)

/-- `flush` keeps the sizes right. -/
theorem sized_flush (w : World) (hw : Sized w) : Sized { w with udp := w.udp.flush } :=
  ⟨fun _ hbuf => absurd hbuf (fun hno => nomatch hno), Nat.le_refl 0, fun _ => rfl, hw.waiting,
    hw.bound⟩

/-- `read` goes one byte on, or nowhere. -/
theorem read_cases (u : WiFiUDP) :
    (u.read.1 = u ∧ (u.rx_buffer = none ∨ u.rx_len ≤ u.rx_pos)) ∨
      (u.read.1 = { u with rx_pos := u.rx_pos + 1 } ∧ u.rx_buffer ≠ none ∧
        u.rx_pos < u.rx_len) := by
  unfold WiFiUDP.read
  cases hbuf : u.rx_buffer with
  | none => exact Or.inl ⟨rfl, Or.inl rfl⟩
  | some buf =>
      simp only []
      split
      · next hend => exact Or.inl ⟨rfl, Or.inr hend⟩
      · next hend => exact Or.inr ⟨by rw [← hbuf], Option.some_ne_none buf, Nat.lt_of_not_le hend⟩

/-- A read into a buffer goes on within the datagram, releases it, or goes
nowhere. -/
theorem readInto_cases (u : WiFiUDP) (given : Bool) (len : Nat) :
    ((u.readInto given len).1 = u ∧
      (u.rx_buffer = none ∨ ¬(given = true ∧ 0 < len))) ∨
    ((u.readInto given len).1 = u.flush ∧ u.rx_buffer ≠ none ∧ given = true ∧ 0 < len) ∨
    (∃ pos, (u.readInto given len).1 = { u with rx_pos := pos } ∧ pos < u.rx_len ∧
      u.rx_pos ≤ pos ∧ u.rx_buffer ≠ none ∧ given = true ∧ 0 < len) := by
  unfold WiFiUDP.readInto
  cases hbuf : u.rx_buffer with
  | none => exact Or.inl ⟨rfl, Or.inl rfl⟩
  | some buf =>
      simp only []
      split
      · next hasked =>
        refine Or.inl ⟨rfl, Or.inr ?_⟩
        -- Nothing was asked for.
        rintro ⟨rfl, hpos⟩
        rw [Bool.not_true, Bool.false_or, beq_iff_eq] at hasked
        omega
      · next hasked =>
        have hgiven : given = true ∧ 0 < len := by
          cases given with
          | false => exact absurd rfl hasked
          | true =>
              rw [Bool.not_true, Bool.false_or, beq_iff_eq] at hasked
              exact ⟨rfl, Nat.pos_of_ne_zero hasked⟩
        split
        · -- All that was left has been read, and the buffer is released.
          exact Or.inr (Or.inl ⟨rfl, Option.some_ne_none buf, hgiven⟩)
        · next hend =>
          change ¬u.rx_len ≤ u.rx_pos + min (u.rx_len - u.rx_pos) len at hend
          refine Or.inr (Or.inr ⟨_, by rw [← hbuf], Nat.lt_of_not_le hend, Nat.le_add_right _ _,
            Option.some_ne_none buf, hgiven⟩)

/-- Every event keeps the sizes right. -/
theorem sized_step (w : World) (e : Event) (hw : Sized w) : Sized (step w e) := by
  -- What sends does not touch what is received.
  by_cases hsend : e.sending = true
  · exact sized_of_same w _ (sameReceive_step w e hsend) hw
  · cases e with
    | arrive d =>
        simp only [step, turn]
        split
        · next hopen =>
          -- The datagram is queued, if the server is there to queue it.
          refine ⟨hw.buffer, hw.position, hw.released, ?_, fun _ => hopen⟩
          intro d' hd'
          rcases List.mem_append.1 hd' with hold | hnew
          · exact hw.waiting d' hold
          · rw [List.mem_singleton.1 hnew]
            exact d.2
        · exact hw
    | parsePacket alloc =>
        rcases parse_cases w alloc with ⟨hidle, -⟩ | ⟨-, -, hopen, d, waiting, hcons, hturn⟩
        · rw [step, hidle]
          exact hw
        · rw [step, hturn]
          -- The buffer has the length of what was taken of the datagram.
          refine ⟨?_, Nat.zero_le _, (fun hno => nomatch hno), ?_, fun _ => hopen⟩
          · intro buf hbuf
            rw [← Option.some.inj hbuf]
          · intro d' hd'
            exact hw.waiting d' (hcons ▸ List.mem_cons_of_mem d hd')
    | read =>
        rcases read_cases w.udp with ⟨hread, -⟩ | ⟨hread, hbuf, hpos⟩
        · rw [step, turn, hread]
          exact hw
        · rw [step, turn, hread]
          exact ⟨hw.buffer, hpos, hw.released, hw.waiting, hw.bound⟩
    | readInto given len =>
        rcases readInto_cases w.udp given len with
          ⟨hread, -⟩ | ⟨hread, -⟩ | ⟨pos, hread, hpos, -⟩
        · rw [step, turn, hread]
          exact hw
        · rw [step, turn, hread]
          exact sized_flush w hw
        · rw [step, turn, hread]
          exact ⟨hw.buffer, Nat.le_of_lt hpos, hw.released, hw.waiting, hw.bound⟩
    | available => exact hw
    | peek => exact hw
    | flush => exact sized_flush w hw
    | beginPacket target alloc socket => exact absurd rfl hsend
    | write data sent => exact absurd rfl hsend
    | endPacket sent => exact absurd rfl hsend

/-- Whether bytes are left over depends on the receive side alone. -/
theorem clear_of_same (w w' : World) (h : SameReceive w w') : Clear w' ↔ Clear w := by
  unfold Clear
  rw [h.rx_buffer, h.rx_pos, h.rx_len]

/-- Only a call that exhausts the buffer leaves it behind empty. -/
theorem clear_step (w : World) (e : Event) (hw : Sized w) (hclear : Clear w)
    (h : ¬Exhausts w e) : Clear (step w e) := by
  by_cases hsend : e.sending = true
  · exact (clear_of_same w _ (sameReceive_step w e hsend)).2 hclear
  · cases e with
    | arrive d =>
        simp only [step, turn]
        split
        · exact hclear
        · exact hclear
    | parsePacket alloc =>
        rcases parse_cases w alloc with ⟨hidle, -⟩ | ⟨hbuf, halloc, hopen, d, waiting, hcons, hturn⟩
        · rw [step, hidle]
          exact hclear
        · subst halloc
          rw [step, hturn]
          -- A datagram without bytes would leave a buffer with nothing to read.
          have hbytes : d.bytes ≠ [] := by
            intro hempty
            exact h (Or.inr ⟨rfl, hbuf, hopen, d, by rw [hcons]; rfl, hempty⟩)
          have hlength := List.length_pos_of_ne_nil hbytes
          right
          change 0 < (d.bytes.take kUdpBufferSize).length
          rw [List.length_take, kUdpBufferSize]
          omega
    | read =>
        rcases read_cases w.udp with ⟨hread, -⟩ | ⟨hread, hbuf, hpos⟩
        · rw [step, turn, hread]
          exact hclear
        · rw [step, turn, hread]
          -- This was not the last byte, or the buffer would be exhausted.
          have hmore : w.udp.unread.length ≠ 1 := fun hone => h (Or.inl ⟨rfl, hone⟩)
          rw [unread_length w hw] at hmore
          right
          change w.udp.rx_pos + 1 < w.udp.rx_len
          omega
    | readInto given len =>
        rcases readInto_cases w.udp given len with
          ⟨hread, -⟩ | ⟨hread, -⟩ | ⟨pos, hread, hpos, -⟩
        · rw [step, turn, hread]
          exact hclear
        · rw [step, turn, hread]
          exact Or.inl rfl
        · rw [step, turn, hread]
          exact Or.inr hpos
    | available => exact hclear
    | peek => exact hclear
    | flush => exact Or.inl rfl
    | beginPacket target alloc socket => exact absurd rfl hsend
    | write data sent => exact absurd rfl hsend
    | endPacket sent => exact absurd rfl hsend

/-- Only `flush` and a read into a buffer release an empty buffer. -/
theorem not_clear_step (w : World) (e : Event) (hclear : ¬Clear w) (h : ¬Releases w e) :
    ¬Clear (step w e) := by
  -- There is a buffer, and nothing of it is left.
  have hheld := not_or.1 hclear
  by_cases hsend : e.sending = true
  · exact fun hc => hclear ((clear_of_same w _ (sameReceive_step w e hsend)).1 hc)
  -- only a flush or a read into a block gives the buffer back
  · cases e with
    | arrive d =>
        simp only [step, turn]
        split
        · exact hclear
        · exact hclear
    | parsePacket alloc =>
        rcases parse_cases w alloc with ⟨hidle, -⟩ | ⟨hbuf, -⟩
        · rw [step, hidle]
          exact hclear
        · -- No datagram is taken while the buffer is there.
          exact absurd hbuf hheld.1
    | read =>
        rcases read_cases w.udp with ⟨hread, -⟩ | ⟨-, -, hpos⟩
        · rw [step, turn, hread]
          exact hclear
        · exact absurd hpos hheld.2
    | readInto given len =>
        rcases readInto_cases w.udp given len with
          ⟨hread, -⟩ | ⟨-, -, hgiven, hlen⟩ | ⟨-, -, -, -, -, hgiven, hlen⟩
        · rw [step, turn, hread]
          exact hclear
        · -- A read into a buffer of the sketch's releases it.
          exact absurd (Or.inr ⟨len, hlen, by rw [hgiven]⟩) h
        · exact absurd (Or.inr ⟨len, hlen, by rw [hgiven]⟩) h
    | available => exact hclear
    | peek => exact hclear
    | flush => exact absurd (Or.inl rfl) h
    | beginPacket target alloc socket => exact absurd rfl hsend
    | write data sent => exact absurd rfl hsend
    | endPacket sent => exact absurd rfl hsend

/-- What releases the buffer leaves nothing over. -/
theorem clear_of_releases (w : World) (e : Event) (h : Releases w e) : Clear (step w e) := by
  rcases h with rfl | ⟨len, hlen, rfl⟩
  · exact Or.inl rfl
  · rcases readInto_cases w.udp true len with
      ⟨hread, hwhy⟩ | ⟨hread, -⟩ | ⟨pos, hread, hpos, -⟩
    · rw [step, turn, hread]
      exact Or.inl (hwhy.resolve_right (fun hno => hno ⟨rfl, hlen⟩))
    · rw [step, turn, hread]
      exact Or.inl rfl
    · rw [step, turn, hread]
      exact Or.inr hpos

/-- A read that ends exactly at the datagram's end leaves the buffer behind. -/
theorem not_clear_of_exhausts (w : World) (e : Event) (hw : Sized w) (h : Exhausts w e) :
    ¬Clear (step w e) := by
  rcases h with ⟨rfl, hone⟩ | ⟨rfl, hbuf, hopen, d, hhead, hempty⟩
  · -- The last byte is read, and the buffer stays.
    have hlength := unread_length w hw
    rw [hone] at hlength
    rcases read_cases w.udp with ⟨-, hnone | hend⟩ | ⟨hread, hbuf, hpos⟩
    · rw [unread_of_released w hnone, List.length_nil] at hone
      omega
    · omega
    · rw [step, turn, hread]
      rintro (hnone | hmore)
      · exact hbuf hnone
      · change w.udp.rx_pos + 1 < w.udp.rx_len at hmore
        omega
  · -- The datagram has no bytes, and its buffer is there all the same.
    rcases parse_cases w true with ⟨-, hwhy⟩ | ⟨-, -, -, d', waiting, hcons, hturn⟩
    · rcases hwhy with hb | ha | ho | hn
      · exact absurd hbuf hb
      · exact absurd ha (by decide)
      · exact absurd (hopen.symm.trans ho) (by decide)
      · rw [hn] at hhead
        exact absurd hhead (fun hno => nomatch hno)
    · rw [hcons] at hhead
      rw [step, hturn, Option.some.inj hhead, hempty]
      rintro (hnone | hmore)
      · exact absurd hnone (fun hno => nomatch hno)
      · exact absurd hmore (Nat.lt_irrefl 0)

/-- Along every run of arrivals and calls, a UDP object is the inbox it stands for
if and only if each `parsePacket` that is due gets its memory, and after each
call that leaves an empty buffer behind one that releases it comes before the
next `parsePacket` that is due. -/
theorem conforms_iff (begun : Bool) (es : List Event) :
    EventRun.Always step Conforms (.new begun) es ↔
      EventRun.Always step HasMemory (.new begun) es ∧
        EventRun.Followed step Exhausts (EventRun.Unless step NotDue Releases) (.new begun) es := by
  have hstart : Sized (.new begun) :=
    ⟨fun _ hbuf => absurd hbuf (fun hno => nomatch hno), Nat.le_refl 0, fun _ => rfl,
      fun d hd => absurd hd List.not_mem_nil, fun hne => absurd rfl hne⟩
  -- Given the memory, the law breaks from the exhausted buffer on, until it is released.
  have hiff : EventRun.Always step HasMemory (.new begun) es →
      (EventRun.Always step Conforms (.new begun) es ↔
        EventRun.Followed step Exhausts (EventRun.Unless step NotDue Releases) (.new begun)
          es) := by
    refine EventRun.always_iff_followed (fun w e hw _ => sized_step w e hw) conforms_of_clear
      (fun w e hw _ => conforms_of_notDue w e hw) ?_ (fun w e hw _ => clear_step w e hw)
      (fun w e hw _ => notDue_of_conforms w e hw)
      (fun w e _ _ hclear _ => not_clear_step w e hclear)
      (fun w e hw _ => not_clear_of_exhausts w e hw) hstart (Or.inl rfl)
    intro w e hw _ hreleases
    refine ⟨conforms_of_not_parse w e hw ?_, clear_of_releases w e hreleases⟩
    intro alloc heq
    rcases hreleases with rfl | ⟨len, -, rfl⟩
    · exact absurd heq (fun hno => nomatch hno)
    · exact absurd heq (fun hno => nomatch hno)
  refine ⟨?_, fun h => (hiff h.1).2 h.2⟩
  intro h
  have hmem : EventRun.Always step HasMemory (.new begun) es :=
    EventRun.always_of_inv (fun w e hw hc => hasMemory_of_conforms w e hw hc)
      (fun w e hw _ => sized_step w e hw) hstart h
  exact ⟨hmem, (hiff hmem).1 h⟩

/-- Two datagrams arrive, and the one byte of the first is read by `read()`. -/
theorem second_datagram_kept_out : ¬ ∀ begun es, EventRun.Always step Conforms (.new begun) es := by
  intro hall
  have hrun := hall true [.arrive ⟨⟨⟨1, 7⟩, [65]⟩, by decide⟩, .arrive ⟨⟨⟨1, 7⟩, [66]⟩, by decide⟩,
    .parsePacket true, .read, .parsePacket true]
  exact absurd (hrun.2.2.2.2.1.returns rfl) (by decide)

end WiFi.Udp

end ArduinoBeken
