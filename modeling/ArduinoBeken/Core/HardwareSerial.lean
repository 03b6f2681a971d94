import ArduinoBeken.Library.Run
import ArduinoBeken.Library.BoundedQueue

/-!
# Serial Ports

`RingBufferN`, and `HardwareSerial` objects over it. A receive interrupt of a UART goes
through `s_serialByUart`, which has one object for each UART. `begin` puts its object there
whoever else is there, and `end` clears the entry and takes the UART down, also if another
object has taken it over.

The objects are those of any index type, each with its UART number. Calls and interrupts
are single events. The UART driver does what it is asked to, the port for prints stays the
same, and what an interrupt finds to read is arbitrary.

The characters of each UART go to the object that began last on it and has not ended, in
every state of a run, if and only if no object ends while another one is started on the
same UART (`reception_routed_iff`).

## Main definitions

* `RingBufferN`: The buffer, with what its indices keep.
* `HardwareSerial`, `World`: An object, and the objects with the table and the UARTs.
* `begin_`, `end_`, `available`, `read`, `peek`, `write`: The methods.
* `hardwareSerialRxIsr`: The receive interrupt.
* `Routes`: The law.
* `Alone`: The condition.

## Theorems

* `contents_storeChar`, `readChar_contents`: The buffer is a bounded queue.
* `started_step`: Which objects are started on a UART.
* `reception_routed_iff`: The law along a run.
-/

namespace ArduinoBeken

namespace Core.Serial

/-! ### The ring buffer -/

/-- `RingBufferN`. The head is as far behind the tail as there are characters. -/
structure RingBufferN (N : Nat) [NeZero N] where
  buffer : Fin N → UInt8 := fun _ => 0
  head : Fin N := 0
  tail : Fin N := 0
  numElems : Nat := 0
  fits : numElems ≤ N := by exact Nat.zero_le _
  wraps : head = Fin.ofNat N (tail + numElems) := by rfl

namespace RingBufferN

variable {N : Nat} [NeZero N] (r : RingBufferN N)

/-- The place behind another, around the end. -/
def nextIndex (index : Fin N) : Fin N := Fin.ofNat N (index + 1)

/-- `isEmpty`, by the count. -/
def isEmpty : Bool := r.numElems == 0

/-- `isFull`, by the count. -/
def isFull : Bool := r.numElems == N

/-- A ring that is not full has room. -/
theorem numElems_lt (h : r.isFull = false) : r.numElems < N :=
  Nat.lt_of_le_of_ne r.fits (beq_eq_false_iff_ne.1 h)

/-- Counting from the next index is counting one further. -/
theorem nextIndex_add (i : Fin N) (n : Nat) :
    Fin.ofNat N (nextIndex i + n) = Fin.ofNat N (i + (n + 1)) := by
  refine Fin.ext ?_
  simp only [nextIndex, Fin.val_ofNat, Nat.mod_add_mod]
  congr 1
  omega

/-- The next index of a number is that of the number after it. -/
theorem nextIndex_ofNat (n : Nat) : nextIndex (Fin.ofNat N n) = Fin.ofNat N (n + 1) :=
  Fin.ext (Nat.mod_add_mod _ _ _)

/-- `store_char`. A character that finds the buffer full is lost. -/
def storeChar (c : UInt8) : RingBufferN N :=
  if h : r.isFull = false then
    { buffer := Function.update r.buffer r.head c
      head := nextIndex r.head
      tail := r.tail
      numElems := r.numElems + 1
      fits := r.numElems_lt h
      wraps := by rw [r.wraps, nextIndex_ofNat, Nat.add_assoc] }
  else r

/-- The characters stay where they were. -/
def clear : RingBufferN N :=
  { buffer := r.buffer }

/-- `read_char`. -/
def readChar : Int × RingBufferN N :=
  if h : r.isEmpty = true then (-1, r)
  else
    ((r.buffer r.tail).toNat,
      { buffer := r.buffer
        head := r.head
        tail := nextIndex r.tail
        numElems := r.numElems - 1
        fits := (Nat.sub_le _ _).trans r.fits
        wraps := by
          have hpos : r.numElems - 1 + 1 = r.numElems :=
            Nat.sub_add_cancel (Nat.pos_of_ne_zero fun h0 => h (beq_iff_eq.2 h0))
          rw [r.wraps, nextIndex_add, hpos] })

/-- The number of characters that wait. -/
def available : Int := r.numElems

/-- The room that is left. -/
def availableForStore : Int := N - r.numElems

/-- The first character, which stays, or -1. -/
def peek : Int := if r.isEmpty then -1 else (r.buffer r.tail).toNat

/-- What is to be read, in that order. -/
def contents : List UInt8 := BoundedQueue.window r.buffer r.tail r.numElems

/-- What `read` and `peek` answer of a queue. -/
def firstOf : List UInt8 → Int
  | [] => -1
  | c :: _ => c.toNat

/-- The ring holds as many characters as it counts. -/
@[simp] theorem length_contents : r.contents.length = r.numElems :=
  BoundedQueue.length_window _ _ _

/-- A cleared ring is empty. -/
@[simp] theorem contents_clear : r.clear.contents = [] := rfl

/-- Storing a character offers it to the bounded queue of the contents. -/
theorem contents_storeChar (c : UInt8) :
    (r.storeChar c).contents = BoundedQueue.offer N r.contents c := by
  unfold storeChar BoundedQueue.offer
  rw [length_contents]
  by_cases hfull : r.isFull = false
  · have hlt := r.numElems_lt hfull
    rw [dif_pos hfull, if_pos hlt]
    simp only [contents]
    rw [r.wraps]
    exact BoundedQueue.window_push _ _ _ _ hlt
  · have heq : r.numElems = N := by
      by_contra hne
      exact hfull (beq_eq_false_iff_ne.2 hne)
    rw [dif_neg hfull, if_neg (by omega)]

/-- What `store_char` writes into a ring that is not full. -/
theorem storeChar_fields (c : UInt8) (h : r.isFull = false) :
    (r.storeChar c).buffer = Function.update r.buffer r.head c ∧
      (r.storeChar c).head = nextIndex r.head ∧ (r.storeChar c).tail = r.tail ∧
      (r.storeChar c).numElems = r.numElems + 1 := by
  unfold storeChar
  rw [dif_pos h]
  exact ⟨rfl, rfl, rfl, rfl⟩

/-- What `read_char` gives of a ring that is not empty, and what it writes. -/
theorem readChar_fields (h : r.numElems ≠ 0) :
    r.readChar.1 = (r.buffer r.tail).toNat ∧ r.readChar.2.buffer = r.buffer ∧
      r.readChar.2.head = r.head ∧ r.readChar.2.tail = nextIndex r.tail ∧
      r.readChar.2.numElems = r.numElems - 1 := by
  have hempty : ¬r.isEmpty = true := fun he => h (beq_iff_eq.1 he)
  unfold readChar
  rw [dif_neg hempty]
  exact ⟨rfl, rfl, rfl, rfl, rfl⟩

/-- The first character is read, and the others stay. -/
theorem readChar_contents :
    r.readChar.1 = firstOf r.contents ∧ r.readChar.2.contents = r.contents.tail := by
  unfold readChar
  by_cases hempty : r.isEmpty = true
  · have h0 : r.numElems = 0 := beq_iff_eq.1 hempty
    have hnil : r.contents = [] := List.length_eq_zero_iff.1 ((length_contents r).trans h0)
    rw [dif_pos hempty, hnil]
    exact ⟨rfl, rfl⟩
  · have hpos : r.numElems = r.numElems - 1 + 1 :=
      (Nat.sub_add_cancel (Nat.pos_of_ne_zero fun h0 => hempty (beq_iff_eq.2 h0))).symm
    have hcontents : r.contents = r.buffer r.tail ::
        BoundedQueue.window r.buffer (nextIndex r.tail) (r.numElems - 1) := by
      unfold contents
      rw [hpos]
      exact BoundedQueue.window_succ _ _ _
    rw [dif_neg hempty, hcontents]
    exact ⟨rfl, rfl⟩

end RingBufferN

/-! ### The objects -/

/-- `UART_ID_MAX`. -/
def uartIdMax : Nat := 4

/-- `to_uart_id`. -/
def toUartId (printfPort : Nat) (uartNr : Int) : Nat :=
  if uartNr < 0 then printfPort
  else match uartNr with
    | 0 => 0
    | 1 => 1
    | 2 => 2
    | 3 => 3
    | _ => printfPort

/-- The buffer of an object has room for characters. -/
scoped instance neZeroRx : NeZero 256 := ⟨by decide⟩

/-- An object with its number and its buffer. -/
structure HardwareSerial where
  uartNr : Int
  started : Bool := false
  rxBuffer : RingBufferN 256 := {}

/-- What the receive callback does with one character. -/
def HardwareSerial.storeRxChar (s : HardwareSerial) (c : UInt8) : HardwareSerial :=
  if s.rxBuffer.availableForStore > 0 then { s with rxBuffer := s.rxBuffer.storeChar c } else s

/-- The loop of the interrupt. -/
def HardwareSerial.storeRxChars (s : HardwareSerial) (cs : List UInt8) : HardwareSerial :=
  cs.foldl HardwareSerial.storeRxChar s

/-- The objects, `s_serialByUart` and which UARTs interrupt `hardware_serial_rx_isr`. One
field is history: the objects that are started on a UART, the last to begin first. -/
structure World (ι : Type*) where
  serials : ι → HardwareSerial
  serialByUart : Nat → Option ι := fun _ => none
  receiving : Nat → Bool := fun _ => false
  begun : Nat → List ι := fun _ => []

section Methods

variable {ι : Type*} [DecidableEq ι] (printfPort : Nat) (w : World ι) (i : ι)

/-- The UART of an object. -/
def World.uart : Nat := toUartId printfPort (w.serials i).uartNr

/-- The world with another state of one object. -/
def World.put (s : HardwareSerial) : World ι :=
  { w with serials := Function.update w.serials i s }

/-- `attach_serial_rx`: the object gets the port's characters, and the interrupt is registered.
-/
def World.attachSerialRx (id : Nat) : World ι :=
  if uartIdMax ≤ id then w
  else
    { w with
      serialByUart := Function.update w.serialByUart id (some i)
      receiving := Function.update w.receiving id true }

/-- `detach_serial_rx`: the port has no object. The interrupt stays. -/
def World.detachSerialRx (id : Nat) : World ι :=
  if uartIdMax ≤ id then w
  else { w with serialByUart := Function.update w.serialByUart id none }

/-- `bk_uart_deinit`. -/
def World.deinit (id : Nat) : World ι :=
  { w with receiving := Function.update w.receiving id false }

/-- The initialization of the UART does not matter to the interrupts. -/
def World.begin_ : World ι :=
  let id := w.uart printfPort i
  let s := w.serials i
  let w' := (w.put i { s with rxBuffer := s.rxBuffer.clear, started := true }).attachSerialRx i id
  { w' with begun := Function.update w.begun id (i :: (w.begun id).erase i) }

/-- `end`. The port of `printf` is not closed. -/
def World.end_ : World ι :=
  let id := w.uart printfPort i
  let s := w.serials i
  if s.started then
    let w' := (w.put i { s with rxBuffer := s.rxBuffer.clear, started := false }).detachSerialRx id
    let w' := if id ≠ printfPort then w'.deinit id else w'
    { w' with begun := Function.update w.begun id ((w.begun id).erase i) }
  else w

/-- `available` of an object that has begun. -/
def World.available : Int :=
  if (w.serials i).started then (w.serials i).rxBuffer.available else 0

/-- `read` of an object that has begun. -/
def World.read : Int × World ι :=
  let s := w.serials i
  if s.started then (s.rxBuffer.readChar.1, w.put i { s with rxBuffer := s.rxBuffer.readChar.2 })
  else (-1, w)

/-- `peek` of an object that has begun. -/
def World.peek : Int :=
  if (w.serials i).started then (w.serials i).rxBuffer.peek else -1

/-- `write`, as far as the receiver is concerned. -/
def World.write : World ι :=
  if (w.serials i).started then w else w.begin_ printfPort i

/-- The receive interrupt of a UART with those characters to read. -/
def World.hardwareSerialRxIsr (id : Nat) (cs : List UInt8) : World ι :=
  if uartIdMax ≤ id then w
  else match w.serialByUart id with
    | none => w
    | some i => w.put i ((w.serials i).storeRxChars cs)

/-- An interrupt that comes only if the UART is up to it. -/
def World.interrupt (id : Nat) (cs : List UInt8) : World ι :=
  if w.receiving id then w.hardwareSerialRxIsr id cs else w

end Methods

/-- The calls of the sketch, by object, and the interrupts, by port. -/
inductive Event (ι : Type*) where
  | begin (i : ι)
  | finish (i : ι)
  | available (i : ι)
  | read (i : ι)
  | peek (i : ι)
  | write (i : ι)
  | interrupt (id : Nat) (cs : List UInt8)

section Routing

variable {ι : Type*} [DecidableEq ι] (printfPort : Nat)

/-- One call or one interrupt. A call that returns a number only changes nothing. -/
def step (w : World ι) : Event ι → World ι
  | .begin i => w.begin_ printfPort i
  | .finish i => w.end_ printfPort i
  | .available _ => w
  | .read i => (w.read i).2
  | .peek _ => w
  | .write i => w.write printfPort i
  | .interrupt id cs => w.interrupt id cs

/-! ### The law -/

/-- The object whose buffer the characters of a UART come to. -/
def World.receiver (w : World ι) (id : Nat) : Option ι :=
  if w.receiving id then w.serialByUart id else none

/-- The object that began last on a UART and has not ended. -/
def World.heir (w : World ι) (id : Nat) : Option ι := (w.begun id).head?

/-- An interrupt stores its characters into the object that began last and has not ended,
and into no other, and behind every event that is the object which receives. -/
structure Routes (w : World ι) (e : Event ι) : Prop where
  stores : ∀ id cs, e = .interrupt id cs → id < uartIdMax → ∀ i,
    (step printfPort w e).serials i =
      if w.heir id = some i then (w.serials i).storeRxChars cs else w.serials i
  receives : ∀ id, id < uartIdMax →
    (step printfPort w e).receiver id = (step printfPort w e).heir id

/-- A started object does not end while another one is started on its UART. -/
def Alone (w : World ι) : Event ι → Prop
  | .finish i => (w.serials i).started = true → w.uart printfPort i < uartIdMax →
    ∀ j, j ≠ i → ¬((w.serials j).started = true ∧ w.uart printfPort j = w.uart printfPort i)
  | _ => True

/-! ### What the methods come to -/

variable (w : World ι) (i : ι)

omit [DecidableEq ι] in
/-- `attachSerialRx` and `detachSerialRx` leave the objects and the history as they are. -/
theorem attachSerialRx_fields (id : Nat) :
    (w.attachSerialRx i id).serials = w.serials ∧ (w.attachSerialRx i id).begun = w.begun := by
  unfold World.attachSerialRx
  split_ifs <;> exact ⟨rfl, rfl⟩

omit [DecidableEq ι] in
/-- Detaching a routine touches no serial and no list of begun ones. -/
theorem detachSerialRx_fields (id : Nat) :
    (w.detachSerialRx id).serials = w.serials ∧ (w.detachSerialRx id).begun = w.begun := by
  unfold World.detachSerialRx
  split_ifs <;> exact ⟨rfl, rfl⟩

/-- `begin` empties the ring and starts the serial, and touches no other. -/
theorem begin_serials :
    (w.begin_ printfPort i).serials = Function.update w.serials i
      { w.serials i with rxBuffer := (w.serials i).rxBuffer.clear, started := true } :=
  (attachSerialRx_fields _ i _).1

/-- `begin` puts the serial at the head of its UART's list. -/
theorem begin_begun :
    (w.begin_ printfPort i).begun = Function.update w.begun (w.uart printfPort i)
      (i :: (w.begun (w.uart printfPort i)).erase i) := rfl

/-- `begin` makes the serial its UART's receiver. -/
theorem begin_receiver (id : Nat) (hid : id < uartIdMax) :
    (w.begin_ printfPort i).receiver id =
      if id = w.uart printfPort i then some i else w.receiver id := by
  unfold World.begin_ World.attachSerialRx World.receiver
  by_cases hmine : id = w.uart printfPort i
  · subst hmine
    simp only [if_neg (Nat.not_le_of_lt hid), Function.update_self, if_true]
  · rw [if_neg hmine]
    -- The print port may be no UART at all, and then nothing is attached.
    by_cases hmax : uartIdMax ≤ w.uart printfPort i
    · simp only [if_pos hmax]
      rfl
    · simp only [if_neg hmax, Function.update_of_ne hmine]
      rfl

/-- `end` of a serial that is not started does nothing. -/
theorem end_idle (h : (w.serials i).started = false) : w.end_ printfPort i = w := by
  unfold World.end_
  exact if_neg (Bool.eq_false_iff.1 h)

/-- `end` empties the ring and stops the serial, and touches no other. -/
theorem end_serials (h : (w.serials i).started = true) :
    (w.end_ printfPort i).serials = Function.update w.serials i
      { w.serials i with rxBuffer := (w.serials i).rxBuffer.clear, started := false } := by
  unfold World.end_ World.deinit
  simp only [if_pos h]
  split_ifs <;> exact (detachSerialRx_fields _ _).1

/-- `end` takes the serial off its UART's list. -/
theorem end_begun (h : (w.serials i).started = true) :
    (w.end_ printfPort i).begun = Function.update w.begun (w.uart printfPort i)
      ((w.begun (w.uart printfPort i)).erase i) := by
  unfold World.end_
  simp only [if_pos h]

/-- `end` leaves the UART without a receiver, also where another serial uses it. -/
theorem end_receiver (h : (w.serials i).started = true) (id : Nat) (hid : id < uartIdMax) :
    (w.end_ printfPort i).receiver id =
      if id = w.uart printfPort i then none else w.receiver id := by
  unfold World.end_ World.deinit World.detachSerialRx World.receiver
  simp only [if_pos h]
  by_cases hmine : id = w.uart printfPort i
  · subst hmine
    simp only [if_neg (Nat.not_le_of_lt hid)]
    split_ifs <;> simp
  · rw [if_neg hmine]
    split_ifs <;> simp_all [World.put]

/-! ### Which objects are started -/

/-- The history knows the objects that are started on each UART. -/
structure Booked (w : World ι) : Prop where
  mem : ∀ i id, i ∈ w.begun id ↔ (w.serials i).started = true ∧ w.uart printfPort i = id
  nodup : ∀ id, (w.begun id).Nodup

omit [DecidableEq ι] in
/-- The objects keep their numbers, and those with an entry are the ones that are started. -/
theorem booked_of {w' : World ι} (h : Booked printfPort w) (hbegun : w'.begun = w.begun)
    (hserials : ∀ j, (w'.serials j).started = (w.serials j).started ∧
      (w'.serials j).uartNr = (w.serials j).uartNr) : Booked printfPort w' := by
  refine ⟨fun j id => ?_, fun id => ?_⟩
  · unfold World.uart
    rw [hbegun, (hserials j).1, (hserials j).2]
    exact h.mem j id
  · rw [hbegun]
    exact h.nodup id

/-- `begin` changes no serial's UART. -/
theorem begin_uart (j : ι) : (w.begin_ printfPort i).uart printfPort j = w.uart printfPort j := by
  unfold World.uart
  rw [begin_serials]
  by_cases hji : j = i
  · subst hji
    rw [Function.update_self]
  · rw [Function.update_of_ne hji]

/-- `begin` keeps the lists. -/
theorem booked_begin (h : Booked printfPort w) : Booked printfPort (w.begin_ printfPort i) := by
  refine ⟨fun j id => ?_, fun id => ?_⟩
  -- The list of the object's UART gains the object, the others stay.
  · rw [begin_uart, begin_begun, begin_serials]
    by_cases hji : j = i
    · subst hji
      rw [Function.update_self]
      by_cases hid : id = w.uart printfPort j
      · subst hid
        rw [Function.update_self]
        exact ⟨fun _ => ⟨rfl, rfl⟩, fun _ => List.mem_cons_self⟩
      · rw [Function.update_of_ne hid, h.mem]
        exact ⟨fun hj => absurd hj.2.symm hid, fun hj => absurd hj.2.symm hid⟩
    · rw [Function.update_of_ne hji]
      by_cases hid : id = w.uart printfPort i
      · subst hid
        rw [Function.update_self, List.mem_cons, List.mem_erase_of_ne hji, h.mem]
        exact ⟨fun hj => hj.resolve_left hji, Or.inr⟩
      · rw [Function.update_of_ne hid, h.mem]
  · rw [begin_begun]
    by_cases hid : id = w.uart printfPort i
    · subst hid
      rw [Function.update_self]
      exact List.nodup_cons.2 ⟨(h.nodup _).not_mem_erase, (h.nodup _).erase i⟩
    · rw [Function.update_of_ne hid]
      exact h.nodup id

/-- `end` changes no serial's UART. -/
theorem end_uart (j : ι) : (w.end_ printfPort i).uart printfPort j = w.uart printfPort j := by
  by_cases hstarted : (w.serials i).started = true
  · unfold World.uart
    rw [end_serials printfPort w i hstarted]
    by_cases hji : j = i
    · subst hji
      rw [Function.update_self]
    · rw [Function.update_of_ne hji]
  · rw [end_idle printfPort w i (Bool.eq_false_iff.2 hstarted)]

/-- `end` keeps the lists. -/
theorem booked_end (h : Booked printfPort w) : Booked printfPort (w.end_ printfPort i) := by
  by_cases hstarted : (w.serials i).started = true
  · refine ⟨fun j id => ?_, fun id => ?_⟩
    -- An object has one place in one list, so that taking it out once is enough.
    · rw [end_uart, end_begun printfPort w i hstarted, end_serials printfPort w i hstarted]
      by_cases hji : j = i
      · subst hji
        rw [Function.update_self]
        by_cases hid : id = w.uart printfPort j
        · subst hid
          rw [Function.update_self]
          exact ⟨fun hj => absurd hj (h.nodup _).not_mem_erase, fun hj =>
            absurd hj.1 Bool.false_ne_true⟩
        · rw [Function.update_of_ne hid, h.mem]
          exact ⟨fun hj => absurd hj.2.symm hid, fun hj => absurd hj.2.symm hid⟩
      · rw [Function.update_of_ne hji]
        by_cases hid : id = w.uart printfPort i
        · subst hid
          rw [Function.update_self, List.mem_erase_of_ne hji, h.mem]
        · rw [Function.update_of_ne hid, h.mem]
    · rw [end_begun printfPort w i hstarted]
      by_cases hid : id = w.uart printfPort i
      · subst hid
        rw [Function.update_self]
        exact (h.nodup _).erase i
      · rw [Function.update_of_ne hid]
        exact h.nodup id
  · rw [end_idle printfPort w i (Bool.eq_false_iff.2 hstarted)]
    exact h

/-- The loop of the interrupt touches the buffer alone. -/
theorem storeRxChars_fields (s : HardwareSerial) (cs : List UInt8) :
    (s.storeRxChars cs).started = s.started ∧ (s.storeRxChars cs).uartNr = s.uartNr := by
  induction cs generalizing s with
  | nil => exact ⟨rfl, rfl⟩
  | cons c cs ih =>
      have hone : (s.storeRxChar c).started = s.started ∧ (s.storeRxChar c).uartNr = s.uartNr := by
        unfold HardwareSerial.storeRxChar
        split_ifs <;> exact ⟨rfl, rfl⟩
      have hrest := ih (s.storeRxChar c)
      exact ⟨hrest.1.trans hone.1, hrest.2.trans hone.2⟩

/-- Replacing an object by one that differs in its buffer. -/
theorem put_fields (s : HardwareSerial) (hs : s.started = (w.serials i).started ∧
    s.uartNr = (w.serials i).uartNr) (j : ι) :
    ((w.put i s).serials j).started = (w.serials j).started ∧
      ((w.put i s).serials j).uartNr = (w.serials j).uartNr := by
  unfold World.put
  by_cases hji : j = i
  · subst hji
    simpa only [Function.update_self] using hs
  · simp only [Function.update_of_ne hji, and_self]

/-- What `read` and the interrupt change is in the buffers. -/
theorem read_eq : (w.read i).2 = w.put i { w.serials i with
    rxBuffer := if (w.serials i).started then (w.serials i).rxBuffer.readChar.2
      else (w.serials i).rxBuffer } := by
  unfold World.read
  by_cases hstarted : (w.serials i).started = true
  · simp only [if_pos hstarted]
  · simp only [if_neg hstarted]
    exact (congrArg (fun f => { w with serials := f }) (Function.update_eq_self i w.serials)).symm

/-- An interrupt stores into the object that receives. -/
theorem interrupt_eq (id : Nat) (cs : List UInt8) (hid : id < uartIdMax) :
    w.interrupt id cs = match w.receiver id with
      | none => w
      | some i => w.put i ((w.serials i).storeRxChars cs) := by
  unfold World.interrupt World.hardwareSerialRxIsr World.receiver
  rw [if_neg (Nat.not_le_of_lt hid)]
  by_cases hon : w.receiving id = true
  · rw [if_pos hon, if_pos hon]
  · rw [if_neg hon, if_neg hon]

/-- Past the last UART no interrupt stores anything. -/
theorem interrupt_beyond (id : Nat) (cs : List UInt8) (hid : uartIdMax ≤ id) :
    w.interrupt id cs = w := by
  unfold World.interrupt World.hardwareSerialRxIsr
  rw [if_pos hid, ite_self]

/-- An interrupt changes rings alone. -/
theorem interrupt_fields (id : Nat) (cs : List UInt8) :
    (w.interrupt id cs).begun = w.begun ∧ (w.interrupt id cs).receiver = w.receiver ∧
      ∀ j, ((w.interrupt id cs).serials j).started = (w.serials j).started ∧
        ((w.interrupt id cs).serials j).uartNr = (w.serials j).uartNr := by
  by_cases hid : id < uartIdMax
  · rw [interrupt_eq w id cs hid]
    cases w.receiver id with
    | none => exact ⟨rfl, rfl, fun _ => ⟨rfl, rfl⟩⟩
    | some i => exact ⟨rfl, rfl, put_fields w i _ (storeRxChars_fields _ _)⟩
  · rw [interrupt_beyond w id cs (Nat.le_of_not_lt hid)]
    exact ⟨rfl, rfl, fun _ => ⟨rfl, rfl⟩⟩

/-- The history knows the started objects behind every event. -/
theorem started_step (e : Event ι) (h : Booked printfPort w) :
    Booked printfPort (step printfPort w e) := by
  cases e with
  | begin i => exact booked_begin printfPort w i h
  | finish i => exact booked_end printfPort w i h
  | available i => exact h
  | read i =>
      simp only [step, read_eq]
      exact booked_of printfPort w h rfl (put_fields w i _ ⟨rfl, rfl⟩)
  | peek i => exact h
  | write i =>
      simp only [step, World.write]
      split_ifs
      · exact h
      · exact booked_begin printfPort w i h
  | interrupt id cs =>
      have hfields := interrupt_fields w id cs
      exact booked_of printfPort w h hfields.1 hfields.2.2

/-! ### Routing -/

/-- The invariant: what is booked for each port, and who receives its characters. -/
structure Inv (w : World ι) : Prop where
  booked : Booked printfPort w
  receives : ∀ id, id < uartIdMax → w.receiver id = w.heir id

/-- An object that begins takes over its UART. -/
theorem begin_receives (h : Inv printfPort w) (id : Nat) (hid : id < uartIdMax) :
    (w.begin_ printfPort i).receiver id = (w.begin_ printfPort i).heir id := by
  rw [begin_receiver printfPort w i id hid]
  unfold World.heir
  rw [begin_begun]
  by_cases hmine : id = w.uart printfPort i
  · subst hmine
    rw [if_pos rfl, Function.update_self, List.head?_cons]
  · rw [if_neg hmine, Function.update_of_ne hmine]
    exact h.receives id hid

/-- An object that ends leaves its UART to nobody. -/
theorem end_receives (h : Inv printfPort w) :
    (∀ id, id < uartIdMax →
      (w.end_ printfPort i).receiver id = (w.end_ printfPort i).heir id) ↔
        Alone printfPort w (.finish i) := by
  -- an object that is not started changes nothing
  by_cases hstarted : (w.serials i).started = true
  · -- the others on the UART are what is left of the list
    have hothers : (w.begun (w.uart printfPort i)).erase i = [] ↔
        ∀ j, j ≠ i →
          ¬((w.serials j).started = true ∧ w.uart printfPort j = w.uart printfPort i) := by
      rw [List.eq_nil_iff_forall_not_mem]
      refine ⟨fun hnone j hji hj => hnone j ?_, fun hnone j hj => ?_⟩
      · rw [List.mem_erase_of_ne hji]
        exact (h.booked.mem j _).2 hj
      · have hji : j ≠ i := fun hji => (h.booked.nodup _).not_mem_erase (hji ▸ hj)
        exact hnone j hji ((h.booked.mem j _).1 (List.mem_of_mem_erase hj))
    have hheir : ∀ id, (w.end_ printfPort i).heir id =
        (Function.update w.begun (w.uart printfPort i)
          ((w.begun (w.uart printfPort i)).erase i) id).head? := fun id => by
      unfold World.heir
      rw [end_begun printfPort w i hstarted]
    constructor
    · intro hall _ hmax
      -- The UART has no receiver now, so nobody may be left in its list.
      have hmine := hall _ hmax
      rw [end_receiver printfPort w i hstarted _ hmax, if_pos rfl, hheir,
        Function.update_self] at hmine
      exact hothers.1 (List.head?_eq_none_iff.1 hmine.symm)
    · intro halone id hid
      rw [end_receiver printfPort w i hstarted id hid, hheir]
      by_cases hmine : id = w.uart printfPort i
      · subst hmine
        rw [if_pos rfl, Function.update_self, hothers.2 (halone hstarted hid), List.head?_nil]
      · rw [if_neg hmine, Function.update_of_ne hmine]
        exact h.receives id hid
  · rw [end_idle printfPort w i (Bool.eq_false_iff.2 hstarted)]
    exact ⟨fun _ hno => absurd hno hstarted, fun _ => h.receives⟩

/-- An interrupt stores what arrived in the ring of the last serial begun there, and in no
other. -/
theorem interrupt_stores (h : Inv printfPort w) (id : Nat) (cs : List UInt8)
    (hid : id < uartIdMax) (j : ι) :
    (w.interrupt id cs).serials j =
      if w.heir id = some j then (w.serials j).storeRxChars cs else w.serials j := by
  rw [interrupt_eq w id cs hid, h.receives id hid]
  cases hheir : w.heir id with
  | none => exact (if_neg (Option.some_ne_none j).symm).symm
  | some i =>
      by_cases hji : j = i
      · subst hji
        rw [if_pos rfl]
        exact Function.update_self _ _ _
      · rw [if_neg fun hsome => hji (Option.some.inj hsome).symm]
        exact Function.update_of_ne hji _ _

/-- A step leaves every UART its right receiver exactly if no other serial stands behind it. -/
theorem receives_step (e : Event ι) (h : Inv printfPort w) :
    (∀ id, id < uartIdMax →
      (step printfPort w e).receiver id = (step printfPort w e).heir id) ↔
        Alone printfPort w e := by
  cases e with
  | begin i => exact iff_of_true (begin_receives printfPort w i h) True.intro
  | finish i => exact end_receives printfPort w i h
  | available i => exact iff_of_true h.receives True.intro
  | read i =>
      refine iff_of_true (fun id hid => ?_) True.intro
      simp only [step, read_eq]
      exact h.receives id hid
  | peek i => exact iff_of_true h.receives True.intro
  | write i =>
      refine iff_of_true ?_ True.intro
      -- a port that is not started is begun by the write
      simp only [step, World.write]
      split_ifs
      · exact h.receives
      · exact begin_receives printfPort w i h
  | interrupt id cs =>
      refine iff_of_true (fun id' hid' => ?_) True.intro
      have hfields := interrupt_fields w id cs
      simp only [step, World.heir, hfields.1, hfields.2.1]
      exact h.receives id' hid'

/-- A step follows the law exactly if no other serial stands behind it. -/
theorem routes_step (e : Event ι) (h : Inv printfPort w) :
    Routes printfPort w e ↔ Alone printfPort w e := by
  rw [← receives_step printfPort w e h]
  refine ⟨fun hlaw => hlaw.receives, fun hreceives => ⟨?_, hreceives⟩⟩
  -- Where the receiver is the right one, its characters always go to it.
  rintro id cs rfl hid j
  exact interrupt_stores printfPort w h id cs hid j

/-- A step that follows the law keeps the invariant. -/
theorem inv_step (e : Event ι) (h : Inv printfPort w) (hlaw : Routes printfPort w e) :
    Inv printfPort (step printfPort w e) :=
  ⟨started_step printfPort w e h.booked, hlaw.receives⟩

/-- Objects before anything has happened, with their numbers. -/
def fresh (uartNr : ι → Int) : World ι := { serials := fun i => { uartNr := uartNr i } }

omit [DecidableEq ι] in
/-- Serials that were never begun satisfy the invariant. -/
theorem inv_fresh (uartNr : ι → Int) : Inv printfPort (fresh uartNr) := by
  refine ⟨⟨fun i id => ?_, fun _ => List.nodup_nil⟩, fun _ _ => rfl⟩
  exact ⟨fun hno => absurd hno List.not_mem_nil, fun hno => absurd hno.1 Bool.false_ne_true⟩

/-- In every run of every family of objects, the characters of each UART go to the object
that began last on it and has not ended if and only if no object ends while another one
is started on its UART. -/
theorem reception_routed_iff (uartNr : ι → Int) (es : List (Event ι)) :
    EventRun.Always (step printfPort) (Routes printfPort) (fresh uartNr) es ↔
      EventRun.Always (step printfPort) (Alone printfPort) (fresh uartNr) es :=
  EventRun.always_iff_of_good (inv_step printfPort) (routes_step printfPort)
    (inv_fresh printfPort uartNr) es

end Routing

/-- Two objects of one UART, and the first of the two to begin ends. -/
def superseded : List (Event Bool) :=
  [.begin false, .begin true]

/-- The other one is started, and receives nothing. -/
theorem reception_stopped : ¬ ∀ es : List (Event Bool),
    EventRun.Always (step 0) (Routes 0) (fresh fun _ => 1) es := by
  intro hall
  have hlaw := ((EventRun.always_append _ _ _ _ _).1 (hall (superseded ++ [.finish false]))).2.1
  have hreceives := hlaw.receives 1 (by decide)
  exact absurd hreceives (by decide)

end Core.Serial

end ArduinoBeken
