import ArduinoBeken.WiFi.UdpObject

/-!
# The Resources of a UDP Object

The object holds at most one socket and two blocks, and what it holds is all that is out:
every function makes a resource only where it holds none, and `stop`, `flush` and `read` give
back what they forget. As long as the blocks are as long as what is read from them, nothing is
touched that may not be (`Sound`).

One function does not look at its pointer: `write` stores the byte wherever the transmit
buffer is, and there is none on a new object, behind `stop` and behind a `begin` that failed.
The resources are kept in exactly the runs in which no byte is written then.

## Main definitions

* `Sound`: The object holds what is out, and its indices are within its blocks.
* `Kept`: The law of a run that ends with the object.
* `Buffered`: A byte is written to a buffer.

## Theorems

* `sound_stop`, `sound_begin`, `sound_beginPacket`, ...: Every function keeps the object sound.
* `faults_step`: What was recorded stays recorded.
* `sound_step`, `faulty_step`: One call.
* `resources_kept_iff`: When the law holds.
-/

namespace ArduinoBeken

namespace WiFi.UdpObject

open EventRun (run Always)
open Net WiFi.StaticIp
open WiFi.Udp (kUdpBufferSize)

/-- The object holds what is out, and its indices are within its blocks. -/
structure Sound (w : World) : Prop where
  sockets : w.sockets.Held w.udp.udp_server.toList
  heap : w.heap.Held (w.udp.tx_buffer.toList ++ w.udp.rx_buffer.toList)
  tx_len : w.udp.tx_buffer_len ≤ kUdpBufferSize
  tx_null : w.udp.tx_buffer = none → w.udp.tx_buffer_len = 0
  rx_len : w.udp.rx_len ≤ kUdpBufferSize
  rx_pos : w.udp.rx_pos ≤ w.udp.rx_len
  clean : w.faults = []

/-- No fault, and every socket and block given back exactly once, at the end of the object. -/
structure Kept (m : Conversions) (es : List Event) : Prop where
  clean : (run (step m) .new (es ++ [.destroy])).faults = []
  sockets : (run (step m) .new (es ++ [.destroy])).sockets.Settled
  heap : (run (step m) .new (es ++ [.destroy])).heap.Settled

/-- A byte is written only while there is a transmit buffer. -/
def Buffered (w : World) : Event → Prop
  | .write _ | .writeAll (some (_ :: _)) => w.udp.tx_buffer.isSome
  | _ => True

/-! ### Accesses -/

/-- An access inside a live buffer records no fault. -/
theorem touch_of_allows (w : World) (p : Option Nat) (bound : Nat) (h : w.Allows p bound) :
    w.touch p bound = w :=
  if_pos h

/-- The transmit buffer of a sound object may be accessed over its whole size. -/
theorem Sound.allows_tx {w : World} (h : Sound w) (k bound : Nat)
    (hk : w.udp.tx_buffer = some k) (hb : bound ≤ kUdpBufferSize) :
    w.Allows w.udp.tx_buffer bound := by
  refine ⟨hb, k, hk, (h.heap.live_iff k).2 ?_⟩
  rw [hk]
  exact List.mem_append_left _ (List.mem_singleton.2 rfl)

/-- The receive buffer of a sound object may be accessed over its whole size. -/
theorem Sound.allows_rx {w : World} (h : Sound w) (k bound : Nat)
    (hk : w.udp.rx_buffer = some k) (hb : bound ≤ kUdpBufferSize) :
    w.Allows w.udp.rx_buffer bound := by
  refine ⟨hb, k, hk, (h.heap.live_iff k).2 ?_⟩
  rw [hk]
  exact List.mem_append_right _ (List.mem_singleton.2 rfl)

/-- What is read of the transmit buffer is in it. -/
theorem load_tx {w : World} (h : Sound w) :
    (w.load w.udp.tx_buffer 0 w.udp.tx_buffer_len).1 = w := by
  unfold World.load
  split_ifs with hzero
  · rfl
  · cases hk : w.udp.tx_buffer with
    | none => exact absurd (h.tx_null hk) hzero
    | some k =>
        rw [← hk]
        exact touch_of_allows w _ _
          (h.allows_tx k _ hk ((Nat.zero_add _).symm ▸ h.tx_len))

/-- What is read of the receive buffer is in it. -/
theorem load_rx {w : World} (h : Sound w) (hsome : w.udp.rx_buffer ≠ none) (count : Nat)
    (hcount : count ≤ w.udp.rx_len - w.udp.rx_pos) :
    (w.load w.udp.rx_buffer w.udp.rx_pos count).1 = w := by
  unfold World.load
  split_ifs with hzero
  · rfl
  · rcases Option.ne_none_iff_exists'.1 hsome with ⟨k, hk⟩
    have hlen := h.rx_len
    have hpos := h.rx_pos
    exact touch_of_allows w _ _ (h.allows_rx k _ hk (by omega))

/-! ### Every function keeps the object sound -/

/-- Freeing both buffers leaves no dangling pointer. -/
theorem sound_freeBuffers {w : World} (h : Sound w) : Sound w.freeBuffers where
  sockets := h.sockets
  heap := by
    refine Arena.Held.give ?_
    have hnone : w.freeBuffers.udp.tx_buffer.toList ++ w.freeBuffers.udp.rx_buffer.toList = [] :=
      rfl
    rw [hnone, List.append_nil]
    exact h.heap.give
  tx_len := Nat.zero_le _
  tx_null _ := rfl
  rx_len := Nat.zero_le _
  rx_pos := le_refl _
  clean := h.clean

/-- `stop` keeps the invariant and leaves neither a transmit buffer nor a socket. -/
theorem sound_stop {w : World} (h : Sound w) :
    Sound w.stop ∧ w.stop.udp.tx_buffer = none ∧ w.stop.udp.udp_server = none := by
  have hfree := sound_freeBuffers h
  have hsockets := hfree.sockets
  unfold World.stop
  simp only
  split
  · next hfd => exact ⟨hfree, rfl, hfd⟩
  · next fd hfd =>
      rw [hfd] at hsockets
      exact ⟨⟨Arena.Held.free hsockets, hfree.heap, hfree.tx_len, hfree.tx_null, hfree.rx_len,
        hfree.rx_pos, hfree.clean⟩, rfl, rfl⟩

/-- Allocating a transmit buffer where there is none loses nothing, whatever `malloc` answers.
-/
theorem sound_mallocTx {w : World} (h : Sound w) (hnone : w.udp.tx_buffer = none)
    (alloc : Bool) :
    Sound (w.mallocTx alloc) ∧ (w.mallocTx alloc).udp.udp_server = w.udp.udp_server := by
  have hheap := h.heap
  rw [hnone] at hheap
  unfold World.mallocTx
  split_ifs
  · exact ⟨⟨h.sockets, hheap.alloc, h.tx_len, fun hk => absurd hk (Option.some_ne_none _),
      h.rx_len, h.rx_pos, h.clean⟩, rfl⟩
  · exact ⟨⟨h.sockets, hheap, h.tx_len, fun _ => h.tx_null hnone, h.rx_len, h.rx_pos,
      h.clean⟩, rfl⟩

/-- Opening a socket where there is none loses nothing, whatever `socket` answers. -/
theorem sound_openSocket {w : World} (h : Sound w) (hnone : w.udp.udp_server = none)
    (socket : Bool) : Sound (w.openSocket socket) := by
  have hsockets := h.sockets
  rw [hnone] at hsockets
  unfold World.openSocket
  split_ifs
  · exact ⟨hsockets.alloc, h.heap, h.tx_len, h.tx_null, h.rx_len, h.rx_pos, h.clean⟩
  · exact ⟨hsockets, h.heap, h.tx_len, h.tx_null, h.rx_len, h.rx_pos, h.clean⟩

/-- Only the resources, the indices and the faults matter. -/
theorem Sound.congr {w w' : World} (h : Sound w) (hsockets : w'.sockets = w.sockets)
    (hheap : w'.heap = w.heap) (hfaults : w'.faults = w.faults)
    (hfd : w'.udp.udp_server = w.udp.udp_server) (htx : w'.udp.tx_buffer = w.udp.tx_buffer)
    (htxl : w'.udp.tx_buffer_len = w.udp.tx_buffer_len)
    (hrx : w'.udp.rx_buffer = w.udp.rx_buffer) (hrxl : w'.udp.rx_len = w.udp.rx_len)
    (hrxp : w'.udp.rx_pos = w.udp.rx_pos) : Sound w' where
  sockets := by rw [hsockets, hfd]; exact h.sockets
  heap := by rw [hheap, htx, hrx]; exact h.heap
  tx_len := by rw [htxl]; exact h.tx_len
  tx_null := by rw [htx, htxl]; exact h.tx_null
  rx_len := by rw [hrxl]; exact h.rx_len
  rx_pos := by rw [hrxp, hrxl]; exact h.rx_pos
  clean := by rw [hfaults]; exact h.clean

/-- The invariant does not speak of the calls made so far. -/
theorem Sound.withCalls {w : World} (h : Sound w) (calls : List LwipCall) :
    Sound { w with calls := calls } :=
  h.congr rfl rfl rfl rfl rfl rfl rfl rfl rfl

/-- The invariant does not speak of the remote endpoint. -/
theorem sound_setRemote {w : World} (h : Sound w) (ip : IPAddress) (port : UInt16) :
    Sound (w.setRemote ip port) :=
  h.congr rfl rfl rfl rfl rfl rfl rfl rfl rfl

variable (m : Conversions)

/-- `begin` keeps the invariant through every failing call in it. -/
theorem sound_begin {w : World} (h : Sound w) (address : IPAddress) (port : UInt16)
    (r : BeginAnswers) : Sound (w.begin m address port r).1 := by
  rcases sound_stop h with ⟨hstop, htx, hfd⟩
  have hport : Sound { w.stop with udp := { w.stop.udp with server_port := port } } :=
    hstop.congr rfl rfl rfl rfl rfl rfl rfl rfl rfl
  rcases sound_mallocTx hport htx r.alloc with ⟨halloc, hkeep⟩
  have hopen := sound_openSocket halloc (hkeep.trans hfd) r.socket
  unfold World.begin
  simp only
  split_ifs
  · exact halloc
  · exact (sound_stop hopen).1
  · exact (sound_stop hopen).1
  · exact (sound_stop (hopen.withCalls _)).1
  · exact hopen.withCalls _

/-- `beginMulticast` keeps the invariant, whether or not the group is joined. -/
theorem sound_beginMulticast {w : World} (h : Sound w) (a : IPAddress) (p : UInt16)
    (r : BeginAnswers) (join : Bool) : Sound (w.beginMulticast m a p r join).1 := by
  have hbegin := sound_begin m h .zero p r
  unfold World.beginMulticast
  simp only
  split_ifs
  · exact hbegin
  · exact hbegin
  · exact (sound_stop (hbegin.withCalls _)).1
  · exact (hbegin.withCalls _).congr rfl rfl rfl rfl rfl rfl rfl rfl rfl

/-- `beginPacket` keeps the invariant, with or without memory and a socket. -/
theorem sound_beginPacket {w : World} (h : Sound w) (alloc socket : Bool) :
    Sound (w.beginPacket alloc socket).1 := by
  have hbuf : Sound (if w.udp.tx_buffer.isNone then w.mallocTx alloc else w) := by
    split_ifs with hnone
    · exact (sound_mallocTx h (Option.isNone_iff_eq_none.1 hnone) alloc).1
    · exact h
  unfold World.beginPacket
  simp only
  generalize (if w.udp.tx_buffer.isNone then w.mallocTx alloc else w) = w' at hbuf ⊢
  have hzero : Sound { w' with udp := { w'.udp with tx_buffer_len := 0 } } :=
    ⟨hbuf.sockets, hbuf.heap, Nat.zero_le _, fun _ => rfl, hbuf.rx_len, hbuf.rx_pos, hbuf.clean⟩
  split_ifs with hport hnone hfd
  · exact h
  · exact hbuf
  · exact hzero
  · exact sound_openSocket hzero (Option.not_isSome_iff_eq_none.1 hfd) socket

/-- `beginPacket` with a target keeps the invariant. -/
theorem sound_beginTo {w : World} (h : Sound w) (target : Target) (alloc socket : Bool) :
    Sound (w.beginTo target alloc socket).1 := by
  rcases target with _ | ⟨ip, port⟩ | ⟨_ | ip, port⟩
  · exact sound_beginPacket h alloc socket
  · exact sound_beginPacket (sound_setRemote h ip port) alloc socket
  · exact h
  · exact sound_beginPacket (sound_setRemote h ip port) alloc socket

/-- `beginMulticastPacket` keeps the invariant. -/
theorem sound_beginMulticastPacket {w : World} (h : Sound w) (alloc socket : Bool) :
    Sound (w.beginMulticastPacket alloc socket).1 := by
  unfold World.beginMulticastPacket
  split_ifs
  · exact h
  · exact sound_beginPacket (sound_setRemote h _ _) alloc socket

/-- `endPacket` keeps the invariant. -/
theorem sound_endPacket {w : World} (h : Sound w) : Sound (w.endPacket m) := by
  unfold World.endPacket
  simp only [load_tx h]
  exact h.congr rfl rfl rfl rfl rfl rfl rfl rfl rfl

/-- `endPacket` changes nothing of the object. -/
theorem endPacket_udp (w : World) : (w.endPacket m).udp = w.udp := by
  unfold World.endPacket World.load World.touch
  split_ifs <;> rfl

/-- The object in which a byte is stored: one whose buffer was not full, or was sent. -/
theorem sound_make_room {w : World} (h : Sound w) (k : Nat) (hk : w.udp.tx_buffer = some k) :
    ∃ w', Sound w' ∧ w'.udp.tx_buffer = some k ∧ w'.udp.tx_buffer_len < kUdpBufferSize ∧
      w.write m = fun data =>
        let w'' := w'.store w'.udp.tx_buffer w'.udp.tx_buffer_len data
        { w'' with udp := { w''.udp with tx_buffer_len := w''.udp.tx_buffer_len + 1 } } := by
  by_cases hfull : w.udp.tx_buffer_len = kUdpBufferSize
  · have hend := sound_endPacket m h
    refine ⟨{ w.endPacket m with udp := { w.udp with tx_buffer_len := 0 } }, ?_, hk,
      Nat.succ_pos _, ?_⟩
    · rw [← endPacket_udp m w]
      exact ⟨hend.sockets, hend.heap, Nat.zero_le _, fun _ => rfl, hend.rx_len, hend.rx_pos,
        hend.clean⟩
    · funext data
      simp only [World.write, hfull, if_true]
  · refine ⟨w, h, hk, lt_of_le_of_ne h.tx_len hfull, ?_⟩
    funext data
    simp only [World.write, hfull, if_false]

/-- A byte written into a live buffer keeps the invariant and the buffer. -/
theorem sound_write {w : World} (h : Sound w) (k : Nat) (hk : w.udp.tx_buffer = some k)
    (data : UInt8) : Sound (w.write m data) ∧ (w.write m data).udp.tx_buffer = some k := by
  rcases sound_make_room m h k hk with ⟨w', h', hk', hroom, heq⟩
  have hallow := h'.allows_tx k (w'.udp.tx_buffer_len + 1) hk' hroom
  rw [heq]
  simp only [World.store, touch_of_allows _ _ _ hallow]
  rw [hk']
  exact ⟨⟨h'.sockets, h'.heap, hroom, fun hnone => absurd (hk'.symm.trans hnone)
    (Option.some_ne_none k), h'.rx_len, h'.rx_pos, h'.clean⟩, hk'⟩

/-- Writing bytes one after the other keeps what one write keeps. -/
theorem sound_writeAll {w : World} (h : Sound w) (k : Nat) (hk : w.udp.tx_buffer = some k)
    (data : List UInt8) : Sound (data.foldl (World.write m) w) := by
  induction data generalizing w with
  | nil => exact h
  | cons b data ih =>
      rcases sound_write m h k hk b with ⟨hw, hkw⟩
      exact ih hw hkw

/-- `parsePacket` keeps the invariant, whatever the socket delivers. -/
theorem sound_parsePacket {w : World} (h : Sound w) (alloc : Bool)
    (received : Option (SockaddrIn × List UInt8)) :
    Sound (w.parsePacket m alloc received).1 := by
  unfold World.parsePacket
  split_ifs with hrx halloc
  · exact h
  · exact h
  · have hnone : w.udp.rx_buffer = none := Option.not_isSome_iff_eq_none.1 hrx
    have hheap := h.heap
    rw [hnone, Option.toList_none, List.append_nil] at hheap
    -- The new block is held until it is given back or becomes the receive buffer.
    have hback : (w.heap.alloc.free w.heap.made).Held
        (w.udp.tx_buffer.toList ++ w.udp.rx_buffer.toList) := by
      rw [hnone, Option.toList_none, List.append_nil]
      exact hheap.alloc.free
    have hnew : w.heap.alloc.Held (w.udp.tx_buffer.toList ++ [w.heap.made]) :=
      hheap.alloc.perm (List.perm_append_singleton _ _)
    simp only
    split
    · exact ⟨h.sockets, hback, h.tx_len, h.tx_null, h.rx_len, h.rx_pos, h.clean⟩
    · next peer datagram _ =>
        have hsize : (datagram.take kUdpBufferSize).length ≤ kUdpBufferSize :=
          List.length_take_le _ _
        have hallow : ({ w with heap := w.heap.alloc } : World).Allows (some w.heap.made)
            (datagram.take kUdpBufferSize).length :=
          ⟨hsize, w.heap.made, rfl, (hheap.alloc.live_iff _).2 List.mem_cons_self⟩
        simp only [World.fill, touch_of_allows _ _ _ hallow, ite_self]
        exact ⟨h.sockets, hnew, h.tx_len, h.tx_null, hsize, Nat.zero_le _, h.clean⟩

/-- `flush` keeps the invariant. -/
theorem sound_flush {w : World} (h : Sound w) : Sound w.flush where
  sockets := h.sockets
  heap := by
    have hnone : w.flush.udp.rx_buffer.toList = [] := rfl
    rw [hnone, List.append_nil]
    exact (h.heap.perm List.perm_append_comm).give
  tx_len := h.tx_len
  tx_null := h.tx_null
  rx_len := Nat.zero_le _
  rx_pos := le_refl _
  clean := h.clean

/-- A position further on is within what was received. -/
theorem sound_advance {w : World} (h : Sound w) (count : Nat)
    (hcount : count ≤ w.udp.rx_len - w.udp.rx_pos) :
    Sound { w with udp := { w.udp with rx_pos := w.udp.rx_pos + count } } := by
  have hpos := h.rx_pos
  exact ⟨h.sockets, h.heap, h.tx_len, h.tx_null, h.rx_len, by simp only; omega, h.clean⟩

/-- `read` keeps the invariant. -/
theorem sound_read {w : World} (h : Sound w) : Sound w.read.1 := by
  unfold World.read
  split_ifs with hend
  · exact h
  · rw [not_or, Option.isNone_iff_eq_none] at hend
    have hone : 1 ≤ w.udp.rx_len - w.udp.rx_pos := by omega
    simp only [load_rx h hend.1 1 hone]
    exact sound_advance h 1 hone

/-- `peek` on a sound object changes nothing at all. -/
theorem peek_world {w : World} (h : Sound w) : w.peek.1 = w := by
  unfold World.peek
  split_ifs with hend
  · rfl
  · rw [not_or, Option.isNone_iff_eq_none] at hend
    exact load_rx h hend.1 1 (by omega)

/-- `read` into the caller's buffer keeps the invariant. -/
theorem sound_readInto {w : World} (h : Sound w) (given : Bool) (len : Nat) :
    Sound (w.readInto given len).1 := by
  unfold World.readInto
  split_ifs with hnone
  · exact h
  · rw [not_or, Option.isNone_iff_eq_none] at hnone
    have hcount := Nat.min_le_left (w.udp.rx_len - w.udp.rx_pos) len
    simp only [load_rx h hnone.1 _ hcount]
    have hadvance := sound_advance h _ hcount
    split_ifs
    · exact sound_flush hadvance
    · exact hadvance

/-- A call that writes no byte without a buffer keeps the object sound. -/
theorem sound_step {w : World} (h : Sound w) (e : Event) (hb : Buffered w e) :
    Sound (step m w e) := by
  -- each call by its own lemma; only the writes need the buffer
  cases e with
  | begin address port r => exact sound_begin m h address port r
  | beginMulticast a p r join => exact sound_beginMulticast m h a p r join
  | beginPacket target alloc socket => exact sound_beginTo h target alloc socket
  | beginMulticastPacket alloc socket => exact sound_beginMulticastPacket h alloc socket
  | write data =>
      rcases Option.isSome_iff_exists.1 hb with ⟨k, hk⟩
      exact (sound_write m h k hk data).1
  -- a block of no bytes writes nothing
  | writeAll buffer =>
      rcases buffer with _ | _ | ⟨b, data⟩
      · exact h
      · exact h
      · rcases Option.isSome_iff_exists.1 hb with ⟨k, hk⟩
        exact sound_writeAll m h k hk (b :: data)
  | endPacket => exact sound_endPacket m h
  | parsePacket alloc received => exact sound_parsePacket m h alloc received
  | available => exact h
  | read => exact sound_read h
  | readInto given len => exact sound_readInto h given len
  | peek =>
      rw [step, peek_world h]
      exact h
  | flush => exact sound_flush h
  | stop => exact (sound_stop h).1
  | destroy => exact (sound_stop h).1

/-! ### What was recorded stays recorded -/

/-- The faults of the first world are among those of the second. -/
def Adds (w w' : World) : Prop := w.faults <+: w'.faults

/-- Faults added after faults added are faults added. -/
theorem Adds.trans {w w' w'' : World} (h : Adds w w') (h' : Adds w' w'') : Adds w w'' :=
  List.IsPrefix.trans h h'

/-- A step that records no fault adds to the record. -/
theorem adds_of_eq {w w' : World} (h : w'.faults = w.faults) : Adds w w' := by
  unfold Adds
  exact h ▸ List.prefix_rfl

/-- An access adds at most its own fault. -/
theorem adds_touch (w : World) (p : Option Nat) (bound : Nat) : Adds w (w.touch p bound) := by
  unfold World.touch
  split_ifs
  · exact adds_of_eq rfl
  · exact List.prefix_append _ _

/-- A store adds at most its own fault. -/
theorem adds_store (w : World) (p : Option Nat) (index : Nat) (data : UInt8) :
    Adds w (w.store p index data) := by
  cases p with
  | none => exact adds_touch w none _
  | some k => exact (adds_touch w (some k) (index + 1)).trans (adds_of_eq rfl)

/-- A load adds at most its own fault. -/
theorem adds_load (w : World) (p : Option Nat) (pos count : Nat) :
    Adds w (w.load p pos count).1 := by
  unfold World.load
  split_ifs
  · exact adds_of_eq rfl
  · exact adds_touch w p _

/-- `stop` reads and writes no buffer. -/
theorem stop_faults (w : World) : w.stop.faults = w.faults := by
  unfold World.stop
  simp only
  split <;> rfl

/-- Allocating the transmit buffer accesses none. -/
theorem mallocTx_faults (w : World) (alloc : Bool) : (w.mallocTx alloc).faults = w.faults := by
  unfold World.mallocTx
  split_ifs <;> rfl

/-- Opening the socket accesses no buffer. -/
theorem openSocket_faults (w : World) (socket : Bool) :
    (w.openSocket socket).faults = w.faults := by
  unfold World.openSocket
  split_ifs <;> rfl

/-- `begin` accesses no buffer. -/
theorem begin_faults (w : World) (address : IPAddress) (port : UInt16) (r : BeginAnswers) :
    (w.begin m address port r).1.faults = w.faults := by
  unfold World.begin
  simp only
  split_ifs <;> simp only [stop_faults, openSocket_faults, mallocTx_faults]

/-- `beginMulticast` accesses no buffer. -/
theorem beginMulticast_faults (w : World) (a : IPAddress) (p : UInt16) (r : BeginAnswers)
    (join : Bool) : (w.beginMulticast m a p r join).1.faults = w.faults := by
  unfold World.beginMulticast
  simp only
  split_ifs <;> simp only [stop_faults, begin_faults]

/-- `beginPacket` accesses no buffer. -/
theorem beginPacket_faults (w : World) (alloc socket : Bool) :
    (w.beginPacket alloc socket).1.faults = w.faults := by
  unfold World.beginPacket
  simp only
  split_ifs <;> simp only [openSocket_faults, mallocTx_faults]

/-- `beginPacket` with a target accesses no buffer. -/
theorem beginTo_faults (w : World) (target : Target) (alloc socket : Bool) :
    (w.beginTo target alloc socket).1.faults = w.faults := by
  rcases target with _ | ⟨ip, port⟩ | ⟨_ | ip, port⟩
  · exact beginPacket_faults w alloc socket
  · exact beginPacket_faults (w.setRemote ip port) alloc socket
  · rfl
  · exact beginPacket_faults (w.setRemote ip port) alloc socket

/-- `endPacket` forgets no fault. -/
theorem adds_endPacket (w : World) : Adds w (w.endPacket m) :=
  (adds_load w w.udp.tx_buffer 0 w.udp.tx_buffer_len).trans (adds_of_eq rfl)

/-- `write` forgets no fault. -/
theorem adds_write (w : World) (data : UInt8) : Adds w (w.write m data) := by
  unfold World.write
  simp only
  refine Adds.trans ?_ (Adds.trans (adds_store _ _ _ data) (adds_of_eq rfl))
  split_ifs
  · exact (adds_endPacket m w).trans (adds_of_eq rfl)
  · exact adds_of_eq rfl

/-- Writing a whole buffer forgets no fault. -/
theorem adds_writeAll (w : World) (data : List UInt8) :
    Adds w (data.foldl (World.write m) w) := by
  induction data generalizing w with
  | nil => exact adds_of_eq rfl
  | cons b data ih => exact (adds_write m w b).trans (ih (w.write m b))

/-- `parsePacket` forgets no fault. -/
theorem adds_parsePacket (w : World) (alloc : Bool)
    (received : Option (SockaddrIn × List UInt8)) :
    Adds w (w.parsePacket m alloc received).1 := by
  unfold World.parsePacket
  split_ifs
  · exact adds_of_eq rfl
  · exact adds_of_eq rfl
  · simp only
    split
    · exact adds_of_eq rfl
    · unfold World.fill
      simp only
      split_ifs
      · exact adds_of_eq rfl
      · exact (adds_touch { w with heap := w.heap.alloc } _ _).trans (adds_of_eq rfl)

/-- `read` forgets no fault. -/
theorem adds_read (w : World) : Adds w w.read.1 := by
  unfold World.read
  split_ifs
  · exact adds_of_eq rfl
  · exact (adds_load w _ _ 1).trans (adds_of_eq rfl)

/-- `peek` forgets no fault. -/
theorem adds_peek (w : World) : Adds w w.peek.1 := by
  unfold World.peek
  split_ifs
  · exact adds_of_eq rfl
  · exact adds_load w _ _ 1

/-- `read` into the caller's buffer forgets no fault. -/
theorem adds_readInto (w : World) (given : Bool) (len : Nat) :
    Adds w (w.readInto given len).1 := by
  unfold World.readInto
  split_ifs
  · exact adds_of_eq rfl
  · simp only
    split_ifs
    · exact (adds_load w _ _ _).trans (adds_of_eq rfl)
    · exact (adds_load w _ _ _).trans (adds_of_eq rfl)

/-- No event forgets a fault. -/
theorem adds_step (w : World) (e : Event) : Adds w (step m w e) := by
  cases e with
  | begin address port r => exact adds_of_eq (begin_faults m w address port r)
  | beginMulticast a p r join => exact adds_of_eq (beginMulticast_faults m w a p r join)
  | beginPacket target alloc socket => exact adds_of_eq (beginTo_faults w target alloc socket)
  | beginMulticastPacket alloc socket =>
      unfold step World.beginMulticastPacket
      split_ifs
      · exact adds_of_eq rfl
      · exact adds_of_eq (beginPacket_faults _ alloc socket)
  | write data => exact adds_write m w data
  | writeAll buffer =>
      -- a null pointer writes nothing
      cases buffer with
      | none => exact adds_of_eq rfl
      | some data => exact adds_writeAll m w data
  | endPacket => exact adds_endPacket m w
  | parsePacket alloc received => exact adds_parsePacket m w alloc received
  | available => exact adds_of_eq rfl
  | read => exact adds_read w
  | readInto given len => exact adds_readInto w given len
  | peek => exact adds_peek w
  | flush => exact adds_of_eq rfl
  | stop => exact adds_of_eq (stop_faults w)
  | destroy => exact adds_of_eq (stop_faults w)

/-! ### The law -/

/-- A byte written without a buffer is a fault. -/
theorem write_null {w : World} (h : Sound w) (hnone : w.udp.tx_buffer = none) (data : UInt8) :
    (w.write m data).faults ≠ [] := by
  have hlen : w.udp.tx_buffer_len ≠ kUdpBufferSize := by
    rw [h.tx_null hnone]
    exact (Nat.succ_ne_zero _).symm
  have hnot : ¬w.Allows none (w.udp.tx_buffer_len + 1) := fun hallows =>
    absurd hallows.2 (fun ⟨_, hk, _⟩ => Option.some_ne_none _ hk.symm)
  simp only [World.write, hlen, if_false, World.store, hnone, World.touch, hnot]
  exact List.append_ne_nil_of_right_ne_nil _ (List.cons_ne_nil _ _)

/-- An event that needs a buffer where there is none faults. -/
theorem faulty_step {w : World} (h : Sound w) (e : Event) (hb : ¬Buffered w e) :
    (step m w e).faults ≠ [] := by
  cases e with
  | write data =>
      exact write_null m h (Option.not_isSome_iff_eq_none.1 hb) data
  | writeAll buffer =>
      rcases buffer with _ | _ | ⟨b, data⟩
      · exact absurd trivial hb
      · exact absurd trivial hb
      · -- The first byte is the fault, and the others add to it.
        have hfirst := write_null m h (Option.not_isSome_iff_eq_none.1 hb) b
        have hadds := adds_writeAll m (w.write m b) data
        intro hnil
        exact hfirst (List.prefix_nil.1 (hnil ▸ hadds))
  | _ => exact absurd trivial hb

/-- A new object is sound. -/
theorem sound_new : Sound .new :=
  ⟨Arena.held_new, Arena.held_new, Nat.zero_le _, fun _ => rfl, Nat.zero_le _, le_refl _, rfl⟩

/-- An object that is sound at its end has given everything back once. -/
theorem settled_destroy {w : World} (h : Sound w) :
    w.stop.sockets.Settled ∧ w.stop.heap.Settled := by
  rcases sound_stop h with ⟨hstop, htx, hfd⟩
  have hrx : w.stop.udp.rx_buffer = none := by
    unfold World.stop
    simp only
    split <;> rfl
  have hsockets := hstop.sockets
  have hheap := hstop.heap
  rw [hfd] at hsockets
  rw [htx, hrx] at hheap
  exact ⟨hsockets.settled, hheap.settled⟩

/-- A run records no fault exactly if every event of it finds the buffer it needs. -/
theorem clean_iff_buffered (es : List Event) :
    (run (step m) .new es).faults = [] ↔ Always (step m) Buffered .new es := by
  refine EventRun.holds_iff_always (I := Sound) (P := fun w => w.faults = [])
    (fun w h => h.clean) (fun w e h hb => sound_step m h e hb)
    (fun w e h hb => faulty_step m h e hb) (fun w e hnil => ?_) sound_new es
  exact List.prefix_nil.1 (hnil ▸ adds_step m w e)

/-- The resources are kept in the runs in which no byte is written without a transmit
    buffer, and in no others. -/
theorem resources_kept_iff (es : List Event) : Kept m es ↔ Always (step m) Buffered .new es := by
  have hend : run (step m) .new (es ++ [.destroy]) = (run (step m) .new es).stop := by
    rw [EventRun.run_append]
    rfl
  constructor
  · intro h
    have hclean := h.clean
    rw [hend, stop_faults] at hclean
    exact (clean_iff_buffered m es).1 hclean
  · intro h
    have hsound : Sound (run (step m) .new es) :=
      EventRun.inv_run_of_always (I := Sound) (fun w e hw hb => sound_step m hw e hb) sound_new h
    have hsettled := settled_destroy hsound
    exact ⟨by rw [hend, stop_faults]; exact hsound.clean, by rw [hend]; exact hsettled.1,
      by rw [hend]; exact hsettled.2⟩

/-- A new object that is written to without `begin` or `beginPacket` stores through a null
    pointer. -/
theorem not_kept_new_write : ¬Kept .swapping [.write 65] := by
  intro h
  exact absurd h.clean (by decide)

end WiFi.UdpObject

end ArduinoBeken
