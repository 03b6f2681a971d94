import ArduinoBeken.Library.Run
import ArduinoBeken.Wire.TwoWire

/-!
# The Buffers of the I2C Object

The calls of the sketch and the service loop of the slave thread use the same
two buffers. Here both run at once. The thread goes from one place in its loop
to the next at a `slave` event, with what the SDK answers, and anything may
happen in between: calls of the sketch, and those that the callbacks make while
the thread is in one. A read of the master is two events too, since it waits for the
bus. Every other call of the sketch is one step, and so is each move of the thread, also
where it sets index and length in two statements: neither is interrupted in the middle. The
flags that the loop looks at are set elsewhere, and here to anything at any time.

Index and length of the receive buffer are kept in bounds, and `available` says
how many bytes can be read, as long as nothing is read ahead of a reception: the
slave's reception begins with the index at zero, and the master's ends with the
index within what it received (`bounded_iff`).

## Main definitions

* `Place`, `World`, `Event`: The two threads.
* `World.service`: One move of the slave thread.
* `Bounded`, `StaysBounded`: The law.
* `ReadBehind`: No byte is read ahead of a reception.

## Theorems

* `bounded_service_iff`, `bounded_step_iff`: One move, and one event.
* `bounded_iff`: The law along a run.
-/

namespace ArduinoBeken

namespace Wire

/-- A place in `slaveServiceTask`. The part that answers requests and the part
that receives come in either order, and `second` says that it is the second of
the two. -/
inductive Place where
  | top
  | request (second : Bool)
  | inRequest (second : Bool)
  | answering (second : Bool)
  | receive (second : Bool)
  | receiving (second : Bool)
  | inReceive (second : Bool)
  | bottom (handled : Bool)
deriving DecidableEq, Repr

/-- What the SDK answers: whether the transfer succeeds, and the length in the
message that is then popped, if it is one of the expected kind, with the bytes
received. -/
structure Answer where
  ok : Bool
  popped : Option Nat
  data : List UInt8
deriving DecidableEq, Repr

/-- The object, the place of the slave thread, and the lengths that the reads of the
master under way have asked for. -/
structure World where
  wire : TwoWire := {}
  place : Place := .top
  asked : List Nat := []
deriving DecidableEq, Repr

namespace World

/-! ### The service loop -/

/-- Behind a part of the loop that has handled nothing. -/
def onward (second : Bool) (other : Place) : Place :=
  if second then .bottom false else other

/-- One move of the slave thread. -/
def service (w : World) (a : Answer) : World :=
  let t := w.wire
  match w.place with
  -- the loop does nothing until the bus is up as a slave
  | .top =>
    if t.initialized && t.slave_mode then
      { w with place := if t.next_slave_event_write then .request false else .receive false }
    else w
  | .request second =>
    if t.on_request then
      if t.request_pending then { w with place := .answering second }
      else { w with wire := { t with tx_buffer := [] }, place := .inRequest second }
    else { w with place := onward second (.receive true) }
  | .inRequest second =>
    -- The callback has returned. Without a byte to send there is no transfer.
    if 0 < t.tx_buffer.length then
      { w with wire := { t with request_pending := true }, place := .answering second }
    else { w with place := onward second (.receive true) }
  | .answering second =>
    -- the answer's bytes are gone, sent or not
    { w with
      wire := { t with tx_buffer := [], request_pending := false }
      place := if a.ok && a.popped.isSome then .bottom true else onward second (.receive true) }
  | .receive second =>
    if t.on_receive then
      { w with wire := { t with rx_length := 0 }, place := .receiving second }
    else { w with place := onward second (.request true) }
  | .receiving second =>
    if a.ok then
      let length :=
        -- a length of more than the buffer is taken for none
        match a.popped with
        | some n => if n ≤ bufferSize then n else 0
        | none => 0
      { w with
        wire := { t with rx_buffer := a.data, rx_length := length, rx_index := 0 }
        place := if 0 < length ∧ t.on_receive then .inReceive second else .bottom true }
    else { w with place := onward second (.request true) }
  | .inReceive _ => { w with place := .bottom true }
  | .bottom handled =>
    { w with
      wire := if handled then { t with next_slave_event_write := !t.next_slave_event_write } else t
      place := .top }

/-! ### The calls -/

/-- `requestFrom` up to its transfer, if the bus is or can be initialised. -/
def requestFrom (w : World) (size : Nat) (ready : Bool) : World :=
  if ready then
    { w with
      wire := { w.wire with rx_index := 0, rx_length := 0 }
      asked := w.asked ++ [min size bufferSize] }
  else w

/-- The transfer of one of the reads is over. -/
def masterRead (w : World) (i : Nat) (ok : Bool) (data : List UInt8) : World :=
  match w.asked[i]? with
  | some size =>
    { w with
      wire := if ok then { w.wire with rx_buffer := data, rx_length := size } else w.wire
      asked := w.asked.eraseIdx i }
  | none => w

/-- `endTransmission`, if the bus is or can be initialised. -/
def endTransmission (w : World) (ready : Bool) : World :=
  if ready then { w with wire := { w.wire with tx_buffer := [] } } else w

end World

/-- A call of the sketch, a move of the thread, or a change of the flags. -/
inductive Event where
  | beginTransmission (address : Nat)
  | write (data : UInt8)
  | endTransmission (ready : Bool)
  | requestFrom (size : Nat) (ready : Bool)
  | masterRead (i : Nat) (ok : Bool) (data : List UInt8)
  | read
  | peek
  | available
  | flags (initialized slave_mode on_receive on_request : Bool)
  | slave (a : Answer)
deriving DecidableEq, Repr

/-- One event. -/
def step (w : World) : Event → World
  | .beginTransmission address => { w with wire := w.wire.beginTransmission address }
  | .write data => { w with wire := (w.wire.write data).1 }
  | .endTransmission ready => w.endTransmission ready
  | .requestFrom size ready => w.requestFrom size ready
  | .masterRead i ok data => w.masterRead i ok data
  | .read => { w with wire := w.wire.read.1 }
  | .peek => w
  | .available => w
  | .flags initialized slave_mode on_receive on_request =>
    { w with
      wire := { w.wire with
        initialized := initialized, slave_mode := slave_mode
        on_receive := on_receive, on_request := on_request } }
  | .slave a => w.service a

/-! ### The law -/

/-- The bounds of both buffers, and `available` is the number of bytes that
successive reads return. -/
structure Bounded (t : TwoWire) : Prop where
  index : t.rx_index ≤ t.rx_length
  length : t.rx_length ≤ bufferSize
  transmit : t.tx_buffer.length ≤ bufferSize
  readable : t.available = t.reads.length

/-- The law in the state behind an event. -/
def StaysBounded (w : World) (e : Event) : Prop :=
  Bounded (step w e).wire

/-- When the slave thread begins to receive, the index is at zero, and when a read
of the master succeeds, the index is within what was asked for. -/
def ReadBehind (w : World) : Event → Prop
  | .slave _ => ∀ second, w.place = .receive second → w.wire.on_receive = true →
      w.wire.rx_index = 0
  | .masterRead i ok _ => ∀ size, w.asked[i]? = some size → ok = true → w.wire.rx_index ≤ size
  | _ => True

/-! ### One event -/

/-- The bounds are the law but for what follows from them. -/
theorem bounded_of_bounds (t : TwoWire) (hindex : t.rx_index ≤ t.rx_length)
    (hlength : t.rx_length ≤ bufferSize) (htransmit : t.tx_buffer.length ≤ bufferSize) :
    Bounded t :=
  ⟨hindex, hlength, htransmit, t.reads_length.2 hindex⟩

/-- Other fields do not matter to the bounds. -/
theorem bounded_of_same (t t' : TwoWire) (h : Bounded t) (hindex : t'.rx_index = t.rx_index)
    (hlength : t'.rx_length = t.rx_length)
    (htransmit : t'.tx_buffer.length ≤ bufferSize) : Bounded t' := by
  refine bounded_of_bounds t' ?_ ?_ htransmit
  · rw [hindex, hlength]
    exact h.index
  · rw [hlength]
    exact h.length

/-- A move of the slave thread keeps the bounds unless it begins to receive with
bytes already read. -/
theorem bounded_service_iff (w : World) (a : Answer) (h : Bounded w.wire) :
    Bounded (w.service a).wire ↔ ReadBehind w (.slave a) := by
  have hempty : ([] : List UInt8).length ≤ bufferSize := Nat.zero_le _
  unfold ReadBehind World.service
  cases hplace : w.place with
  | receive second =>
      -- the length is set to zero before the transfer, whatever was read so far
      simp only []
      by_cases hreceive : w.wire.on_receive = true
      · rw [if_pos hreceive]
        refine ⟨?_, ?_⟩
        · intro hbounded _ _ _
          exact Nat.le_zero.1 hbounded.index
        · intro hzero
          refine bounded_of_bounds _ ?_ (Nat.zero_le _) h.transmit
          exact Nat.le_of_eq (hzero second rfl hreceive)
      · rw [if_neg hreceive]
        exact ⟨fun _ _ _ hon => absurd hon hreceive, fun _ => h⟩
  | top =>
      refine ⟨fun _ _ hno => (nomatch hno), fun _ => ?_⟩
      simp only []
      split
      · exact h
      · exact h
  | request second =>
      refine ⟨fun _ _ hno => (nomatch hno), fun _ => ?_⟩
      simp only []
      split
      · split
        · exact h
        · exact bounded_of_same w.wire _ h rfl rfl hempty
      · exact h
  | inRequest second =>
      refine ⟨fun _ _ hno => (nomatch hno), fun _ => ?_⟩
      simp only []
      split
      · exact bounded_of_same w.wire _ h rfl rfl h.transmit
      · exact h
  | answering second =>
      exact ⟨fun _ _ hno => (nomatch hno), fun _ => bounded_of_same w.wire _ h rfl rfl hempty⟩
  | receiving second =>
      refine ⟨fun _ _ hno => (nomatch hno), fun _ => ?_⟩
      simp only []
      split
      -- what the transfer brings starts at the buffer's first byte
      · refine bounded_of_bounds _ (Nat.zero_le _) ?_ h.transmit
        simp only []
        split
        · split
          · assumption
          · exact Nat.zero_le _
        · exact Nat.zero_le _
      · exact h
  | inReceive second => exact ⟨fun _ _ hno => (nomatch hno), fun _ => h⟩
  | bottom handled =>
      refine ⟨fun _ _ hno => (nomatch hno), fun _ => ?_⟩
      simp only []
      split
      · exact bounded_of_same w.wire _ h rfl rfl h.transmit
      · exact h

theorem bounded_write (t : TwoWire) (data : UInt8) (h : Bounded t) : Bounded (t.write data).1 := by
  unfold TwoWire.write
  split
  · exact h
  · next hroom =>
    refine bounded_of_same t _ h rfl rfl ?_
    rw [List.length_append, List.length_singleton]
    omega

theorem bounded_read (t : TwoWire) (h : Bounded t) : Bounded t.read.1 := by
  unfold TwoWire.read
  split
  · exact h
  · next hmore =>
    refine bounded_of_bounds _ ?_ h.length h.transmit
    change t.rx_index + 1 ≤ t.rx_length
    omega

theorem bounded_masterRead_iff (w : World) (i : Nat) (ok : Bool) (data : List UInt8)
    (hasked : ∀ size ∈ w.asked, size ≤ bufferSize) (h : Bounded w.wire) :
    Bounded (w.masterRead i ok data).wire ↔ ReadBehind w (.masterRead i ok data) := by
  unfold ReadBehind World.masterRead
  cases hi : w.asked[i]? with
  | none =>
      refine ⟨fun _ size hsize => ?_, fun _ => h⟩
      exact absurd (hi.symm.trans hsize) (by simp)
  | some size =>
      cases ok with
      | false =>
          refine ⟨fun _ _ _ hno => (nomatch hno), fun _ => ?_⟩
          exact h
      | true =>
          refine ⟨?_, ?_⟩
          -- what the master reads was cut to the buffer when it was asked for
          · intro hbounded size' hsize _
            rw [← Option.some.inj (hi.symm.trans hsize)]
            exact hbounded.index
          · intro hbehind
            refine bounded_of_bounds _ (hbehind size hi rfl) ?_ h.transmit
            exact hasked size (List.mem_of_getElem? hi)

/-- The reads under way have asked for no more than fits. -/
def Fits (w : World) : Prop :=
  ∀ size ∈ w.asked, size ≤ bufferSize

theorem fits_step (w : World) (e : Event) (h : Fits w) : Fits (step w e) := by
  -- only `requestFrom` asks the master for anything
  cases e with
  | requestFrom size ready =>
      simp only [step, World.requestFrom]
      split
      · -- what is asked for is cut to the buffer
        intro n hn
        rcases List.mem_append.1 hn with hold | hnew
        · exact h n hold
        · rw [List.mem_singleton.1 hnew]
          exact Nat.min_le_right _ _
      · exact h
  | masterRead i ok data =>
      simp only [step, World.masterRead]
      split
      · intro n hn
        exact h n (List.mem_of_mem_eraseIdx hn)
      · exact h
  | endTransmission ready =>
      simp only [step, World.endTransmission]
      split
      · exact h
      · exact h
  | slave a =>
      -- the slave asks for nothing itself
      have hasked : (w.service a).asked = w.asked := by
        unfold World.service
        simp only []
        repeat' split
        all_goals rfl
      rw [step, Fits, hasked]
      exact h
  | _ => exact h

/-- An event keeps the bounds if and only if it receives nothing behind a read
that went ahead. -/
theorem bounded_step_iff (w : World) (e : Event) (hfits : Fits w) (h : Bounded w.wire) :
    StaysBounded w e ↔ ReadBehind w e := by
  -- only a step of the slave or a read of the master sets a length
  cases e with
  | slave a => exact bounded_service_iff w a h
  | masterRead i ok data => exact bounded_masterRead_iff w i ok data hfits h
  | beginTransmission address =>
      exact ⟨fun _ => True.intro, fun _ => bounded_of_same w.wire _ h rfl rfl (Nat.zero_le _)⟩
  | write data => exact ⟨fun _ => True.intro, fun _ => bounded_write w.wire data h⟩
  | endTransmission ready =>
      refine ⟨fun _ => True.intro, fun _ => ?_⟩
      simp only [StaysBounded, step, World.endTransmission]
      split
      · exact bounded_of_same w.wire _ h rfl rfl (Nat.zero_le _)
      · exact h
  | requestFrom size ready =>
      refine ⟨fun _ => True.intro, fun _ => ?_⟩
      simp only [StaysBounded, step, World.requestFrom]
      split
      · exact bounded_of_bounds _ (Nat.le_refl 0) (Nat.zero_le _) h.transmit
      · exact h
  | read => exact ⟨fun _ => True.intro, fun _ => bounded_read w.wire h⟩
  | peek => exact ⟨fun _ => True.intro, fun _ => h⟩
  | available => exact ⟨fun _ => True.intro, fun _ => h⟩
  | flags initialized slave_mode on_receive on_request =>
      exact ⟨fun _ => True.intro, fun _ => bounded_of_same w.wire _ h rfl rfl h.transmit⟩

/-- Along every interleaving of the calls with the moves of the slave thread, with
any answers of the SDK, the bounds hold in every state and `available` is the
number of bytes that can be read if and only if no byte is read ahead of a
reception. -/
theorem bounded_iff (es : List Event) :
    EventRun.Always step StaysBounded {} es ↔ EventRun.Always step ReadBehind {} es := by
  have hstart : Fits {} ∧ Bounded {} :=
    ⟨fun n hn => absurd hn List.not_mem_nil,
      bounded_of_bounds {} (Nat.le_refl 0) (Nat.zero_le _) (Nat.zero_le _)⟩
  exact EventRun.always_iff_of_good (I := fun w => Fits w ∧ Bounded w.wire)
    (fun w e hw hgood => ⟨fits_step w e hw.1, hgood⟩)
    (fun w e hw => bounded_step_iff w e hw.1 hw.2) hstart es

/-- A slave receives two bytes, its callback reads one of them, and the loop comes
round to receive again. -/
theorem index_behind_length : ¬ ∀ es, EventRun.Always step StaysBounded {} es := by
  intro hall
  have hrun := (EventRun.always_append step StaysBounded {}
    [.flags true true true false, .slave ⟨true, none, []⟩, .slave ⟨true, none, []⟩,
      .slave ⟨true, some 2, [7, 8]⟩, .read, .slave ⟨true, none, []⟩, .slave ⟨true, none, []⟩,
      .slave ⟨true, none, []⟩, .slave ⟨true, none, []⟩]
    [.slave ⟨true, none, []⟩]).1 (hall _)
  exact absurd hrun.2.1.index (by decide)

end Wire

end ArduinoBeken
