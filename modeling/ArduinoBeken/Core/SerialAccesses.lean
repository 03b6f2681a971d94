import Mathlib
import ArduinoBeken.Core.SerialQueue
import ArduinoBeken.Library.Linearization

/-!
# The Accesses of a Serial Port

The calls on a `HardwareSerial` take several accesses to its variables, and a receive
interrupt can come between any two of them. It runs to its end before the call goes on.

The buffer has no lock, and `_numElems` is written from both sides. `read_char` loads it,
and stores it one smaller in another access: what an interrupt has counted in between is
not counted any more. `clear` sets the three variables one after the other, and an
interrupt in between adds to some of them. In all other places an interrupt does no harm,
and the calls are those of a queue, each done at some moment between its beginning and its
return (`explained_of_undisturbed`).

With no interrupt between its accesses a call is the method of `Core.HardwareSerial`
(`uninterrupted`).

## Main definitions

* `Point`: The place a call has come to, with what it has loaded.
* `Machine`: The variables and the call under way.
* `access`, `receive`: What a call does next, and the interrupt.
* `Explained`: The calls and interrupts are those of a queue.
* `Undisturbed`: What an interrupt may not come between.

## Theorems

* `keeps_access`, `keeps_receive`: The relation to the queue, at every point.
* `explained_of_undisturbed`: The law.
* `uninterrupted`: What a call is if it is left alone.
-/

namespace ArduinoBeken

namespace Core.Serial

/-! ### The accesses -/

/-- What a call does next, with the values it holds. -/
inductive Point where
  | idle
  | beginHead | beginTail | beginElems | beginAttach | beginStarted
  | endStarted | endDetach | endHead | endTail | endElems | endStopped
  | availableStarted | availableElems
  | readStarted | readEmpty | readTail | readSlot (tail : Fin 256) | readNext (value : UInt8)
  | readStoreTail (value : UInt8) (tail : Fin 256) | readElems (value : UInt8)
  | readStoreElems (value : UInt8) (numElems : Int)
  | peekStarted | peekEmpty | peekTail | peekSlot (tail : Fin 256)
  | writeStarted
deriving DecidableEq, Repr

/-- The variables of an object, whether `s_serialByUart` has it, and its call under way. Where
the table has it the interrupt is enabled. -/
structure Machine where
  buffer : Fin 256 → UInt8 := fun _ => 0
  head : Fin 256 := 0
  tail : Fin 256 := 0
  numElems : Int := 0
  started : Bool := false
  attached : Bool := false
  call : Option SerialCall := none
  point : Point := .idle

/-- A call begins, goes on by one access, or an interrupt brings characters. -/
inductive SerialEvent where
  | call (c : SerialCall)
  | access
  | receive (cs : List UInt8)
deriving DecidableEq, Repr

/-- Where a call starts. -/
def SerialCall.entry : SerialCall → Point
  | .begin => .beginHead
  | .finish => .endStarted
  | .available => .availableStarted
  | .read => .readStarted
  | .peek => .peekStarted
  | .write => .writeStarted

namespace Machine

variable (uart : Nat) (m : Machine)

/-- The call goes on at another point. -/
def goTo (p : Point) : Machine := { m with point := p }

/-- The call returns. -/
def leave : Machine := { m with call := none, point := .idle }

/-- The next access of the call under way. -/
def access : Machine :=
  match m.point with
  | .idle => m
  | .beginHead => { m with head := 0, point := .beginTail }
  | .beginTail => { m with tail := 0, point := .beginElems }
  | .beginElems => { m with numElems := 0, point := .beginAttach }
  | .beginAttach =>
    { m with attached := if uartIdMax ≤ uart then m.attached else true, point := .beginStarted }
  | .beginStarted => { m with started := true }.leave
  | .endStarted => if m.started then m.goTo .endDetach else m.leave
  | .endDetach =>
    { m with attached := if uartIdMax ≤ uart then m.attached else false, point := .endHead }
  | .endHead => { m with head := 0, point := .endTail }
  | .endTail => { m with tail := 0, point := .endElems }
  | .endElems => { m with numElems := 0, point := .endStopped }
  | .endStopped => { m with started := false }.leave
  | .availableStarted => if m.started then m.goTo .availableElems else m.leave
  | .availableElems => m.leave
  | .readStarted => if m.started then m.goTo .readEmpty else m.leave
  | .readEmpty => if m.numElems = 0 then m.leave else m.goTo .readTail
  | .readTail => m.goTo (.readSlot m.tail)
  | .readSlot tail => m.goTo (.readNext (m.buffer tail))
  | .readNext value => m.goTo (.readStoreTail value (RingBufferN.nextIndex m.tail))
  | .readStoreTail value tail => { m with tail := tail, point := .readElems value }
  | .readElems value => m.goTo (.readStoreElems value m.numElems)
  | .readStoreElems _ numElems => { m with numElems := numElems - 1 }.leave
  | .peekStarted => if m.started then m.goTo .peekEmpty else m.leave
  | .peekEmpty => if m.numElems = 0 then m.leave else m.goTo .peekTail
  | .peekTail => m.goTo (.peekSlot m.tail)
  | .peekSlot _ => m.leave
  | .writeStarted => if m.started then m.leave else m.goTo .beginHead

/-- What the call returns with its next access, if it does. -/
def returning : Option (Option Int) :=
  match m.point with
  | .beginStarted | .endStopped => some none
  | .endStarted => if m.started then none else some none
  | .availableStarted => if m.started then none else some (some 0)
  | .availableElems => some (some m.numElems)
  | .readStarted => if m.started then none else some (some (-1))
  | .readEmpty => if m.numElems = 0 then some (some (-1)) else none
  | .readStoreElems value _ => some (some value.toNat)
  | .peekStarted => if m.started then none else some (some (-1))
  | .peekEmpty => if m.numElems = 0 then some (some (-1)) else none
  | .peekSlot tail => some (some (m.buffer tail).toNat)
  | .writeStarted => if m.started then some none else none
  | _ => none

/-- `isFull`, by the count. -/
def isFull : Bool := m.numElems == 256

/-- `store_char`, which nothing interrupts. -/
def storeChar (c : UInt8) : Machine :=
  if m.isFull then m
  else
    { m with
      buffer := Function.update m.buffer m.head c
      head := RingBufferN.nextIndex m.head
      numElems := m.numElems + 1 }

/-- What the receive callback does with one character. -/
def storeRxChar (c : UInt8) : Machine :=
  if 256 - m.numElems > 0 then m.storeChar c else m

/-- The receive interrupt, with those characters to read. -/
def receive (cs : List UInt8) : Machine :=
  if m.attached then cs.foldl storeRxChar m else m

/-- One call is under way at most. -/
def step (m : Machine) : SerialEvent → Machine
  | .call c => if m.point = .idle then { m with call := some c, point := c.entry } else m
  | .access => m.access uart
  | .receive cs => m.receive cs

/-- What a call returns if the event ends it. -/
def returned (m : Machine) : SerialEvent → Option (Option Int)
  | .access => m.returning
  | _ => none

end Machine

/-! ### The law -/

/-- The object, as one whose calls are not done at once. -/
def accesses (uart : Nat) :
    Linearization.Stepwise Machine SerialEvent SerialCall (Option Int) where
  step := Machine.step uart
  call := Machine.call
  returned := Machine.returned

/-- The queue. -/
def queue (uart : Nat) : Linearization.AtOnce Port SerialEvent SerialCall (Option Int) where
  perform := Port.perform
  answer := Port.answer
  observe p
    | .receive cs => p.receive uart cs
    | _ => p

/-- The calls and interrupts are those of a queue: every call is done at some moment between
its beginning and its return, and returns what the queue answers. -/
def Explained (uart : Nat) (es : List SerialEvent) : Prop :=
  Linearization.explains (accesses uart) (queue uart) {} {} none es = true

instance (uart : Nat) (es : List SerialEvent) : Decidable (Explained uart es) :=
  inferInstanceAs (Decidable (_ = true))

/-- The places at which `_numElems` or the indices are being changed: behind the load of
`_numElems` in `read_char`, and between the stores of `clear` in a `begin`. -/
def Point.Updating : Point → Bool
  | .beginTail | .beginElems | .readStoreElems _ _ => true
  | _ => false

/-- No interrupt stores a character where an update is not complete. -/
def Undisturbed (m : Machine) : SerialEvent → Prop
  | .receive cs => m.point.Updating = true → m.attached = false ∨ cs = [] ∨ 256 ≤ m.numElems
  | _ => True

instance (m : Machine) (e : SerialEvent) : Decidable (Undisturbed m e) :=
  match e with
  | .receive _ => inferInstanceAs (Decidable (_ → _))
  | .call _ => inferInstanceAs (Decidable True)
  | .access => inferInstanceAs (Decidable True)

/-! ### The buffer and the queue -/

namespace Machine

/-- What the buffer has from a place on. -/
def Ring (m : Machine) (tail : Fin 256) (q : List UInt8) : Prop :=
  ∃ r : RingBufferN 256, r.buffer = m.buffer ∧ r.head = m.head ∧ r.tail = tail ∧
    (r.numElems : Int) = m.numElems ∧ r.contents = q

/-- The count of a ring is the length of its queue. -/
theorem Ring.numElems_eq {m : Machine} {tail : Fin 256} {q : List UInt8} (h : m.Ring tail q) :
    m.numElems = q.length := by
  rcases h with ⟨r, -, -, -, hnum, hq⟩
  rw [← hnum, ← hq, r.length_contents]

/-- A ring's queue has at most 256 characters. -/
theorem Ring.length_le {m : Machine} {tail : Fin 256} {q : List UInt8} (h : m.Ring tail q) :
    q.length ≤ 256 := by
  rcases h with ⟨r, -, -, -, -, hq⟩
  rw [← hq, r.length_contents]
  exact r.fits

/-- A buffer without characters may begin anywhere. -/
theorem ring_nil (m : Machine) (hhead : m.head = 0) (hnum : m.numElems = 0) : m.Ring 0 [] :=
  ⟨{ buffer := m.buffer }, rfl, hhead.symm, rfl, hnum.symm, rfl⟩

/-- The first character is in the place at the tail. -/
theorem Ring.head {m : Machine} {tail : Fin 256} {q : List UInt8} (h : m.Ring tail q)
    (hsome : q ≠ []) : q.head? = some (m.buffer tail) := by
  rcases h with ⟨r, hbuffer, -, htail, -, hq⟩
  have hpos : r.numElems = r.numElems - 1 + 1 := by
    have hlen := List.length_pos_iff.2 hsome
    rw [← hq, r.length_contents] at hlen
    omega
  have hcontents : r.contents = r.buffer r.tail ::
      BoundedQueue.window r.buffer (RingBufferN.nextIndex r.tail) (r.numElems - 1) := by
    unfold RingBufferN.contents
    rw [hpos]
    exact BoundedQueue.window_succ _ _ _
  rw [← hq, hcontents, List.head?_cons, hbuffer, htail]

/-- A buffer whose tail is one on and that counts one less has lost the first character. -/
theorem Ring.tail {m : Machine} {tail : Fin 256} {q : List UInt8} (h : m.Ring tail q)
    (hsome : q ≠ []) :
    { m with numElems := m.numElems - 1 }.Ring (RingBufferN.nextIndex tail) q.tail := by
  rcases h with ⟨r, hbuffer, hhead, htail, hnum, hq⟩
  have hlen := List.length_pos_iff.2 hsome
  rw [← hq, r.length_contents] at hlen
  have hread := r.readChar_fields (by omega)
  refine ⟨r.readChar.2, hread.2.1.trans hbuffer, hread.2.2.1.trans hhead, ?_, ?_, ?_⟩
  · rw [hread.2.2.2.1, htail]
  · rw [hread.2.2.2.2]
    simp only
    omega
  · rw [r.readChar_contents.2, hq]

/-- The interrupt stores as the buffer does. -/
theorem Ring.storeRxChar {m : Machine} {tail : Fin 256} {q : List UInt8} (h : m.Ring tail q)
    (c : UInt8) : (m.storeRxChar c).Ring tail (BoundedQueue.offer rxSize q c) := by
  rcases h with ⟨r, hbuffer, hhead, htail, hnum, hq⟩
  have hcontents := r.contents_storeChar c
  rw [hq] at hcontents
  -- a full ring drops the byte, as a full queue does
  by_cases hfull : r.isFull = false
  · have hlt := r.numElems_lt hfull
    have hnot : m.isFull = false := beq_eq_false_iff_ne.2 (by omega)
    have hmachine : m.storeRxChar c = { m with
        buffer := Function.update m.buffer m.head c
        head := RingBufferN.nextIndex m.head
        numElems := m.numElems + 1 } := by
      unfold Machine.storeRxChar Machine.storeChar
      rw [if_pos (by omega), hnot]
      rfl
    have hstored := r.storeChar_fields c hfull
    rw [hmachine]
    refine ⟨r.storeChar c, ?_, ?_, ?_, ?_, hcontents⟩
    · rw [hstored.1, hbuffer, hhead]
    · rw [hstored.2.1, hhead]
    · rw [hstored.2.2.1]
      exact htail
    · rw [hstored.2.2.2]
      simp only
      omega
  · have heq : r.numElems = 256 := by
      by_contra hne
      exact hfull (beq_eq_false_iff_ne.2 hne)
    have hstored : r.storeChar c = r := dif_neg hfull
    have hmachine : m.storeRxChar c = m := if_neg (by omega)
    rw [hmachine]
    rw [hstored] at hcontents
    exact ⟨r, hbuffer, hhead, htail, hnum, hcontents⟩

/-- The routine stores what has room. -/
theorem Ring.storeRxChars {m : Machine} {tail : Fin 256} {q : List UInt8} (h : m.Ring tail q)
    (cs : List UInt8) : (cs.foldl Machine.storeRxChar m).Ring tail ((q ++ cs).take rxSize) := by
  rw [← BoundedQueue.offerAll_eq_take rxSize q cs h.length_le]
  induction cs generalizing m q with
  | nil => exact h
  | cons c cs ih => exact ih (h.storeRxChar c)

/-- What an interrupt leaves of a call. -/
structure SameCall (m m' : Machine) : Prop where
  tail : m'.tail = m.tail
  started : m'.started = m.started
  attached : m'.attached = m.attached
  call : m'.call = m.call
  point : m'.point = m.point

/-- The routine leaves the interrupted call as it was. -/
theorem receive_sameCall (m : Machine) (cs : List UInt8) : SameCall m (m.receive cs) := by
  -- the routine writes the head, the count and the buffer, and nothing the call holds
  have hone (m : Machine) (c : UInt8) : SameCall m (m.storeRxChar c) := by
    unfold Machine.storeRxChar Machine.storeChar
    split
    · split <;> exact ⟨rfl, rfl, rfl, rfl, rfl⟩
    · exact ⟨rfl, rfl, rfl, rfl, rfl⟩
  have hall : SameCall m (cs.foldl Machine.storeRxChar m) := by
    induction cs generalizing m with
    | nil => exact ⟨rfl, rfl, rfl, rfl, rfl⟩
    | cons c cs ih =>
        have hfirst := hone m c
        have hrest := ih (m.storeRxChar c)
        exact ⟨hrest.tail.trans hfirst.tail, hrest.started.trans hfirst.started,
          hrest.attached.trans hfirst.attached, hrest.call.trans hfirst.call,
          hrest.point.trans hfirst.point⟩
  unfold Machine.receive
  split
  · exact hall
  · exact ⟨rfl, rfl, rfl, rfl, rfl⟩

end Machine

/-! ### The object and its queue -/

section Simulation

/-- Between calls, and where a call has changed nothing yet. -/
structure Settled (m : Machine) (p : Port) (owed : Option (Option Int)) : Prop where
  started : m.started = p.started
  ring : m.Ring m.tail p.queue
  owed : owed = none

/-- A call that begins the port. -/
def Begins (m : Machine) (p : Port) : Prop :=
  m.call = some .begin ∨ m.call = some .write ∧ p.started = false

/-- In a `clear` on the way to an empty queue. -/
structure Clearing (m : Machine) (p : Port) (owed : Option (Option Int)) : Prop where
  started : m.started = p.started
  begins : Begins m p
  owed : owed = none
  count : m.numElems = p.queue.length
  fits : p.queue.length ≤ 256
  head : m.head = 0

/-- Behind the moment at which the port has ended. -/
structure Ended (m : Machine) (p : Port) (owed : Option (Option Int)) : Prop where
  started : m.started = true
  port : p = {}
  owed : owed = some none

/-- A call on a started port that waits for its answer. -/
structure Asked (c : SerialCall) (m : Machine) (p : Port) (owed : Option (Option Int)) : Prop where
  started : p.started = true
  call : m.call = some c
  owed : owed = none

/-- A `read` past its last look at the tail, with the first character of the queue. -/
structure Taking (value : UInt8) (m : Machine) (p : Port) (owed : Option (Option Int)) : Prop where
  same : m.started = p.started
  asked : Asked .read m p owed
  first : p.queue.head? = some value
  ring : ∃ tail, m.tail = RingBufferN.nextIndex tail ∧ m.Ring tail p.queue

/-- What holds of the object and the queue at each point of a call. -/
def AtPoint (m : Machine) (p : Port) (owed : Option (Option Int)) : Prop :=
  match m.point with
  | .idle => Settled m p owed ∧ m.call = none
  | .beginHead => Settled m p owed ∧ Begins m p
  | .beginTail => Clearing m p owed
  | .beginElems => Clearing m p owed ∧ m.tail = 0
  | .beginAttach => m.started = p.started ∧ m.Ring m.tail p.queue ∧
    (p.started = true → owed = some none) ∧ (p.started = false → owed = none ∧ Begins m p)
  | .beginStarted => p.started = true ∧ m.Ring m.tail p.queue ∧ owed = some none
  | .endStarted => Settled m p owed ∧ m.call = some .finish
  | .endDetach => Settled m p owed ∧ Asked .finish m p owed
  | .endHead => Ended m p owed
  | .endTail => Ended m p owed ∧ m.head = 0
  | .endElems => Ended m p owed ∧ m.head = 0 ∧ m.tail = 0
  | .endStopped => Ended m p owed ∧ m.Ring m.tail []
  | .availableStarted => Settled m p owed ∧ m.call = some .available
  | .availableElems => Settled m p owed ∧ Asked .available m p owed
  | .readStarted => Settled m p owed ∧ m.call = some .read
  | .readEmpty => Settled m p owed ∧ Asked .read m p owed
  | .readTail => Settled m p owed ∧ Asked .read m p owed ∧ p.queue ≠ []
  | .readSlot tail => Settled m p owed ∧ Asked .read m p owed ∧ p.queue ≠ [] ∧ tail = m.tail
  | .readNext value => Settled m p owed ∧ Asked .read m p owed ∧ p.queue.head? = some value
  | .readStoreTail value tail => Settled m p owed ∧ Asked .read m p owed ∧
    p.queue.head? = some value ∧ tail = RingBufferN.nextIndex m.tail
  | .readElems value => Taking value m p owed
  | .readStoreElems value numElems => Taking value m p owed ∧ numElems = m.numElems
  | .peekStarted => Settled m p owed ∧ m.call = some .peek
  | .peekEmpty => Settled m p owed ∧ Asked .peek m p owed
  | .peekTail => Settled m p owed ∧ Asked .peek m p owed ∧ p.queue ≠ []
  | .peekSlot tail => Settled m p owed ∧ Asked .peek m p owed ∧ p.queue ≠ [] ∧ tail = m.tail
  | .writeStarted => Settled m p owed ∧ m.call = some .write

/-- The object and the queue. -/
structure Keeps (uart : Nat) (m : Machine) (p : Port) (owed : Option (Option Int)) : Prop where
  attached : m.attached = (p.started && decide (uart < uartIdMax))
  empty : p.started = false → p.queue = []
  point : AtPoint m p owed

variable {uart : Nat} {m : Machine} {p : Port} {owed : Option (Option Int)}

/-- Characters that arrive between two calls are queued. -/
theorem Settled.receive {cs : List UInt8} (h : Settled m p owed) (hon : m.attached = true) :
    Settled (m.receive cs) { p with queue := (p.queue ++ cs).take rxSize } owed := by
  have hsame := m.receive_sameCall cs
  refine ⟨hsame.started.trans h.started, ?_, h.owed⟩
  rw [hsame.tail]
  unfold Machine.receive
  rw [if_pos hon]
  exact h.ring.storeRxChars cs

/-- More characters behind the first one. -/
theorem head_receive {q : List UInt8} {value : UInt8} (cs : List UInt8)
    (h : q.head? = some value) : ((q ++ cs).take rxSize).head? = some value := by
  cases q with
  | nil => cases h
  | cons c q => exact h

/-- What arrives empties no queue. -/
theorem ne_nil_receive {q : List UInt8} (cs : List UInt8) (h : q ≠ []) :
    (q ++ cs).take rxSize ≠ [] := by
  cases q with
  | nil => exact absurd rfl h
  | cons c q => exact List.cons_ne_nil _ _

/-- An interrupt that stores nothing. -/
theorem receive_nothing (m : Machine) (cs : List UInt8) (h : cs = [] ∨ 256 ≤ m.numElems) :
    m.receive cs = m := by
  have hone (m : Machine) (c : UInt8) (hfull : 256 ≤ m.numElems) : m.storeRxChar c = m :=
    if_neg (by omega)
  unfold Machine.receive
  split
  · rcases h with rfl | hfull
    · rfl
    · induction cs with
      | nil => rfl
      | cons c cs ih => rw [List.foldl_cons, hone m c hfull, ih]
  · rfl

/-- The port behind an interrupt. -/
def received (p : Port) (cs : List UInt8) : Port :=
  { p with queue := (p.queue ++ cs).take rxSize }

/-- Characters that arrive while a call begins are queued. -/
theorem Begins.receive (h : Begins m p) (cs : List UInt8) :
    Begins (m.receive cs) (received p cs) := by
  unfold Begins
  rw [(m.receive_sameCall cs).call]
  exact h

/-- Characters that arrive while a call is still to answer are queued. -/
theorem Asked.receive {c : SerialCall} (h : Asked c m p owed) (cs : List UInt8) :
    Asked c (m.receive cs) (received p cs) owed :=
  ⟨h.started, (m.receive_sameCall cs).call.trans h.call, h.owed⟩

/-- Characters that arrive while one is taken are queued behind. -/
theorem Taking.receive {value : UInt8} (h : Taking value m p owed) (hon : m.attached = true)
    (cs : List UInt8) : Taking value (m.receive cs) (received p cs) owed := by
  have hsame := m.receive_sameCall cs
  rcases h.ring with ⟨tail, htail, hring⟩
  refine ⟨hsame.started.trans h.same, h.asked.receive cs, head_receive cs h.first, tail,
    hsame.tail.trans htail, ?_⟩
  unfold Machine.receive
  rw [if_pos hon]
  exact hring.storeRxChars cs

/-- A full queue takes nothing. -/
theorem received_nothing (p : Port) (cs : List UInt8) (hfits : p.queue.length ≤ 256)
    (h : cs = [] ∨ 256 ≤ p.queue.length) : received p cs = p := by
  have hqueue : (p.queue ++ cs).take rxSize = p.queue := by
    rcases h with rfl | hfull
    · rw [List.append_nil]
      exact List.take_of_length_le hfits
    · have hlen : p.queue.length = rxSize := Nat.le_antisymm hfits hfull
      rw [← hlen, List.take_left]
  unfold received
  rw [hqueue]

/-- Where an update is not complete, the interrupt must have nothing to store. -/
theorem atPoint_updating (h : AtPoint m p owed) (hon : m.attached = true) (cs : List UInt8)
    (hu : Undisturbed m (.receive cs)) (hupdating : m.point.Updating = true) :
    AtPoint (m.receive cs) (received p cs) owed := by
  -- at such a point nothing may arrive, or nothing that the full ring takes
  have hnothing : cs = [] ∨ 256 ≤ m.numElems :=
    (hu hupdating).resolve_left (by rw [hon]; exact Bool.noConfusion)
  have hcount : m.numElems = p.queue.length ∧ p.queue.length ≤ 256 := by
    unfold AtPoint at h
    -- the points of an update, one by one: two stores of the clearing, one of the read
    cases hpoint : m.point with
    | beginTail =>
        rw [hpoint] at h
        exact ⟨h.count, h.fits⟩
    | beginElems =>
        rw [hpoint] at h
        exact ⟨h.1.count, h.1.fits⟩
    | readStoreElems value numElems =>
        rw [hpoint] at h
        rcases h.1.ring with ⟨tail, -, hring⟩
        exact ⟨hring.numElems_eq, hring.length_le⟩
    | _ =>
        rw [hpoint] at hupdating
        cases hupdating
  rw [receive_nothing m cs hnothing,
    received_nothing p cs hcount.2 (hnothing.imp id fun hfull => by omega)]
  exact h

/-- In all other places an interrupt is one of the queue. -/
theorem atPoint_receive (h : AtPoint m p owed) (hon : m.attached = true)
    (hstarted : p.started = true) (cs : List UInt8) (hno : m.point.Updating = false) :
    AtPoint (m.receive cs) (received p cs) owed := by
  have hsame := m.receive_sameCall cs
  have hsettled (hs : Settled m p owed) : Settled (m.receive cs) (received p cs) owed :=
    hs.receive hon
  have hring (hr : m.Ring m.tail p.queue) :
      (m.receive cs).Ring (m.receive cs).tail (received p cs).queue := by
    rw [hsame.tail]
    unfold Machine.receive
    rw [if_pos hon]
    exact hr.storeRxChars cs
  -- once the object has ended nothing can arrive for it
  have hended (he : Ended m p owed) : False := by
    rw [he.port] at hstarted
    cases hstarted
  unfold AtPoint at h ⊢
  rw [hsame.point]
  -- what the call has loaded so far is untouched, so each point keeps its own facts
  cases hpoint : m.point <;> rw [hpoint] at h hno <;> simp only at h ⊢
  case beginTail | beginElems | readStoreElems => cases hno
  case endHead => exact (hended h).elim
  case endTail | endElems | endStopped => exact (hended h.1).elim
  case idle => exact ⟨hsettled h.1, hsame.call.trans h.2⟩
  case beginHead => exact ⟨hsettled h.1, h.2.receive cs⟩
  case beginAttach =>
    exact ⟨hsame.started.trans h.1, hring h.2.1, h.2.2.1, fun hoff => ⟨(h.2.2.2 hoff).1,
      (h.2.2.2 hoff).2.receive cs⟩⟩
  case beginStarted => exact ⟨h.1, hring h.2.1, h.2.2⟩
  case endStarted | availableStarted | readStarted | peekStarted | writeStarted =>
    exact ⟨hsettled h.1, hsame.call.trans h.2⟩
  case endDetach | availableElems | readEmpty | peekEmpty =>
    exact ⟨hsettled h.1, h.2.receive cs⟩
  case readTail | peekTail =>
    exact ⟨hsettled h.1, h.2.1.receive cs, ne_nil_receive cs h.2.2⟩
  case readSlot | peekSlot =>
    exact ⟨hsettled h.1, h.2.1.receive cs, ne_nil_receive cs h.2.2.1, h.2.2.2.trans hsame.tail.symm⟩
  case readNext => exact ⟨hsettled h.1, h.2.1.receive cs, head_receive cs h.2.2⟩
  case readStoreTail =>
    exact ⟨hsettled h.1, h.2.1.receive cs, head_receive cs h.2.2.1, by
      rw [hsame.tail]
      exact h.2.2.2⟩
  case readElems => exact h.receive hon cs

/-- An interrupt that disturbs nothing keeps the simulation. -/
theorem keeps_receive (h : Keeps uart m p owed) (cs : List UInt8)
    (hu : Undisturbed m (.receive cs)) :
    Keeps uart (m.receive cs) (p.receive uart cs) owed := by
  have hsame := m.receive_sameCall cs
  have hattached := h.attached
  -- without the receiver attached nothing of what arrives is seen on either side
  by_cases hon : m.attached = true
  · rw [hon, eq_comm, Bool.and_eq_true, decide_eq_true_eq] at hattached
    have hport : p.receive uart cs = received p cs := if_pos hattached
    rw [hport]
    refine ⟨?_, fun hoff => ?_, ?_⟩
    · rw [hsame.attached]
      exact h.attached
    · have hoff' : p.started = false := hoff
      rw [hattached.1] at hoff'
      cases hoff'
    · by_cases hupdating : m.point.Updating = true
      · exact atPoint_updating h.point hon cs hu hupdating
      · exact atPoint_receive h.point hon hattached.1 cs (by simpa using hupdating)
  · have hport : p.receive uart cs = p := by
      refine if_neg fun hboth => hon ?_
      rw [h.attached, hboth.1, decide_eq_true hboth.2]
      rfl
    have hmachine : m.receive cs = m := if_neg hon
    rw [hport, hmachine]
    exact h

/-! ### A call goes on -/

/-- The relation, as one of the object and the queue. -/
abbrev Goes (uart : Nat) (m : Machine) (p : Port) (owed : Option (Option Int)) : Prop :=
  ∃ c ∈ Linearization.choices (accesses uart) (queue uart) m p owed,
    Linearization.Follows (accesses uart) (queue uart) (Keeps uart) m .access c.1 c.2

/-- The queue stays where it is, and the call does not return. -/
theorem goes_of_same (hno : m.returning = none) (hafter : Keeps uart (m.access uart) p owed) :
    Goes uart m p owed := by
  refine Linearization.stays_of_follows ⟨fun b hb => ?_, ?_⟩
  · have hb' : m.returning = some b := hb
    rw [hno] at hb'
    cases hb'
  · have hremains : Linearization.remains owed m.returning = owed := by
      rw [hno]
      rfl
    change Keeps uart (m.access uart) p (Linearization.remains owed m.returning)
    rw [hremains]
    exact hafter

/-- An access that the queue does not see, with what it leaves. -/
theorem goes_of_silent {m' : Machine} (haccess : m.access uart = m') (hno : m.returning = none)
    (hafter : Keeps uart m' p owed) : Goes uart m p owed := by
  refine goes_of_same hno ?_
  rw [haccess]
  exact hafter

/-- The queue does the call, which does not return yet. -/
theorem goes_of_moment {c : SerialCall} (hcall : m.call = some c) (hno : m.returning = none)
    (hafter : Keeps uart (m.access uart) (p.perform c) (some (p.answer c))) :
    Goes uart m p none := by
  refine Linearization.performs_of_follows (k := c) hcall ⟨fun b hb => ?_, ?_⟩
  · have hb' : m.returning = some b := hb
    rw [hno] at hb'
    cases hb'
  · have hremains : Linearization.remains (some (p.answer c)) m.returning =
        some (p.answer c) := by
      rw [hno]
      rfl
    change Keeps uart (m.access uart) (p.perform c)
      (Linearization.remains (some (p.answer c)) m.returning)
    rw [hremains]
    exact hafter

/-- The queue does the call, which returns with this access. -/
theorem goes_of_return {c : SerialCall} (hcall : m.call = some c)
    (hreturn : m.returning = some (p.answer c))
    (hafter : Keeps uart (m.access uart) (p.perform c) none) : Goes uart m p none := by
  refine Linearization.performs_of_follows (k := c) hcall ⟨fun b hb => ?_, ?_⟩
  · have hb' : m.returning = some b := hb
    rw [hreturn] at hb'
    exact hb'
  · have hremains : Linearization.remains (some (p.answer c)) m.returning = none := by
      rw [hreturn]
      rfl
    change Keeps uart (m.access uart) (p.perform c)
      (Linearization.remains (some (p.answer c)) m.returning)
    rw [hremains]
    exact hafter

/-- A call that was done before returns. -/
theorem goes_of_owed {b : Option Int} (hreturn : m.returning = some b)
    (hafter : Keeps uart (m.access uart) p none) : Goes uart m p (some b) := by
  refine Linearization.stays_of_follows ⟨fun b' hb => ?_, ?_⟩
  · have hb' : m.returning = some b' := hb
    rw [hreturn] at hb'
    exact hb'
  · have hremains : Linearization.remains (some b) m.returning = none := by
      rw [hreturn]
      rfl
    change Keeps uart (m.access uart) p (Linearization.remains (some b) m.returning)
    rw [hremains]
    exact hafter

/-- Going to another point keeps what is settled. -/
theorem Settled.goTo (h : Settled m p owed) (point : Point) : Settled (m.goTo point) p owed :=
  ⟨h.started, h.ring, h.owed⟩

/-- A call that has changed nothing returns what the queue answers. -/
theorem goes_of_unchanged {c : SerialCall} (h : Keeps uart m p owed) (hs : Settled m p owed)
    (hcall : m.call = some c) (haccess : m.access uart = m.leave)
    (hreturn : m.returning = some (p.answer c)) (hperform : p.perform c = p) :
    Goes uart m p owed := by
  rw [hs.owed]
  refine goes_of_return hcall hreturn ?_
  rw [haccess, hperform]
  exact ⟨h.attached, h.empty, ⟨hs.started, hs.ring, rfl⟩, rfl⟩

/-- A call looks whether the object is started, and returns if it is not. -/
theorem goes_of_check {c : SerialCall} (next : Point) (b : Option Int) (h : Keeps uart m p owed)
    (hs : Settled m p owed) (hcall : m.call = some c)
    (haccess : m.access uart = if m.started then m.goTo next else m.leave)
    (hreturn : m.returning = if m.started then none else some b)
    (hnext : Asked c m p owed → AtPoint (m.goTo next) p owed)
    (hoff : p.started = false → p.answer c = b ∧ p.perform c = p) : Goes uart m p owed := by
  by_cases hstarted : m.started = true
  · rw [if_pos hstarted] at haccess hreturn
    refine goes_of_same hreturn ?_
    rw [haccess]
    exact ⟨h.attached, h.empty, hnext ⟨hs.started.symm.trans hstarted, hcall, hs.owed⟩⟩
  · rw [if_neg hstarted] at haccess hreturn
    rw [hs.started, Bool.not_eq_true] at hstarted
    rw [← (hoff hstarted).1] at hreturn
    exact goes_of_unchanged h hs hcall haccess hreturn (hoff hstarted).2

/-- The last store of the clearing empties the queue. A port that is already started is begun
here. -/
theorem goes_beginElems (h : Keeps uart m p owed) (hpoint : m.point = .beginElems) :
    Goes uart m p owed := by
  have hat := h.point
  unfold AtPoint at hat
  rw [hpoint] at hat
  simp only at hat
  have haccess : m.access uart = { m with numElems := 0, point := .beginAttach } := by
    unfold Machine.access
    rw [hpoint]
  have hno : m.returning = none := by
    unfold Machine.returning
    rw [hpoint]
  have hring : (m.access uart).Ring (m.access uart).tail [] := by
    rw [haccess]
    simp only [hat.2]
    exact Machine.ring_nil _ hat.1.head rfl
  -- whether this is the moment of the call depends on the port being started
  by_cases hstarted : p.started = true
  · have hcall : m.call = some .begin :=
      hat.1.begins.resolve_right fun hw => by rw [hstarted] at hw; cases hw.2
    rw [hat.1.owed]
    refine goes_of_moment hcall hno ⟨?_, (fun hoff => by cases hoff), ?_⟩
    · rw [haccess]
      exact h.attached.trans (by rw [hstarted]; rfl)
    · rw [haccess] at hring ⊢
      exact ⟨hat.1.started.trans hstarted, hring, fun _ => rfl, (fun hoff => by cases hoff)⟩
  · rw [Bool.not_eq_true] at hstarted
    refine goes_of_same hno ?_
    rw [haccess] at hring ⊢
    refine ⟨h.attached, h.empty, hat.1.started, ?_, fun hon => ?_,
      fun _ => ⟨hat.1.owed, hat.1.begins⟩⟩
    · rw [h.empty hstarted]
      exact hring
    · rw [hstarted] at hon
      cases hon

/-- The receiver is attached before the flag is set. A port that is not started is begun here. -/
theorem goes_beginAttach (h : Keeps uart m p owed) (hpoint : m.point = .beginAttach) :
    Goes uart m p owed := by
  have hat := h.point
  unfold AtPoint at hat
  rw [hpoint] at hat
  simp only at hat
  have haccess : m.access uart = { m with
      attached := if uartIdMax ≤ uart then m.attached else true, point := .beginStarted } := by
    unfold Machine.access
    rw [hpoint]
  have hno : m.returning = none := by
    unfold Machine.returning
    rw [hpoint]
  have hattached : (if uartIdMax ≤ uart then m.attached else true) =
      decide (uart < uartIdMax) := by
    by_cases hmax : uartIdMax ≤ uart
    · rw [if_pos hmax, h.attached, decide_eq_false (by omega), Bool.and_false]
    · rw [if_neg hmax, decide_eq_true (by omega)]
  -- where the port was started the moment has passed
  by_cases hstarted : p.started = true
  · have howed := hat.2.2.1 hstarted
    refine goes_of_silent haccess hno ?_
    refine ⟨?_, h.empty, hstarted, hat.2.1, howed⟩
    rw [hattached, hstarted]
    rfl
  · rw [Bool.not_eq_true] at hstarted
    rcases hat.2.2.2 hstarted with ⟨howed, hbegins⟩
    have hring := hat.2.1
    rw [h.empty hstarted] at hring
    -- elsewhere it is the attaching that makes the port ready to receive
    have hdone (c : SerialCall) (hcall : m.call = some c)
        (hperform : p.perform c = { started := true, queue := [] })
        (hanswer : p.answer c = none) : Goes uart m p owed := by
      rw [howed]
      refine goes_of_moment hcall hno ?_
      rw [hperform, hanswer]
      refine ⟨?_, (fun hoff => by cases hoff), ?_⟩
      · rw [haccess]
        exact hattached
      · rw [haccess]
        exact ⟨rfl, hring, rfl⟩
    rcases hbegins with hcall | ⟨hcall, -⟩
    · exact hdone .begin hcall rfl rfl
    · exact hdone .write hcall (if_neg (by rw [hstarted]; exact Bool.false_ne_true)) rfl

/-- The accesses of `begin`. It takes effect where an object that is started loses what it
has, and else where it is put in the table. -/
theorem goes_begin (h : Keeps uart m p owed) (hpoint : m.point = .beginHead ∨
    m.point = .beginTail ∨ m.point = .beginElems ∨ m.point = .beginAttach ∨
    m.point = .beginStarted) : Goes uart m p owed := by
  have hat := h.point
  unfold AtPoint at hat
  rcases hpoint with hpoint | hpoint | hpoint | hpoint | hpoint
  -- the first store leaves the count, which alone the readers look at
  · rw [hpoint] at hat
    simp only at hat
    have haccess : m.access uart = { m with head := 0, point := .beginTail } := by
      unfold Machine.access
      rw [hpoint]
    refine goes_of_silent haccess (by unfold Machine.returning; rw [hpoint]) ?_
    exact ⟨h.attached, h.empty, hat.1.started, hat.2, hat.1.owed, hat.1.ring.numElems_eq,
      hat.1.ring.length_le, rfl⟩
  · rw [hpoint] at hat
    simp only at hat
    have haccess : m.access uart = { m with tail := 0, point := .beginElems } := by
      unfold Machine.access
      rw [hpoint]
    refine goes_of_silent haccess (by unfold Machine.returning; rw [hpoint]) ?_
    exact ⟨h.attached, h.empty,
      ⟨hat.started, hat.begins, hat.owed, hat.count, hat.fits, hat.head⟩, rfl⟩
  · exact goes_beginElems h hpoint
  · exact goes_beginAttach h hpoint
  · rw [hpoint] at hat
    simp only at hat
    have haccess : m.access uart = { m with started := true }.leave := by
      unfold Machine.access
      rw [hpoint]
    rw [hat.2.2]
    refine goes_of_owed (by unfold Machine.returning; rw [hpoint]) ?_
    rw [haccess]
    exact ⟨h.attached, h.empty, ⟨hat.1.symm, hat.2.1, rfl⟩, rfl⟩

/-- The accesses of `end`, which takes effect where the object leaves the table. -/
theorem goes_end (h : Keeps uart m p owed) (hpoint : m.point = .endStarted ∨
    m.point = .endDetach ∨ m.point = .endHead ∨ m.point = .endTail ∨ m.point = .endElems ∨
    m.point = .endStopped) : Goes uart m p owed := by
  have hat := h.point
  unfold AtPoint at hat
  rcases hpoint with hpoint | hpoint | hpoint | hpoint | hpoint | hpoint <;>
    rw [hpoint] at hat <;> simp only at hat
  -- not started: the call returns with nothing done
  · exact goes_of_check .endDetach none h hat.1 hat.2 (by unfold Machine.access; rw [hpoint])
      (by unfold Machine.returning; rw [hpoint]) (fun hasked => ⟨hat.1.goTo _, hasked.started,
        hasked.call, hasked.owed⟩)
      fun hoff => ⟨rfl, if_neg (by rw [hoff]; exact Bool.false_ne_true)⟩
  -- the port ends where its receiver is detached, and the stores behind it are silent
  · have haccess : m.access uart = { m with
        attached := if uartIdMax ≤ uart then m.attached else false, point := .endHead } := by
      unfold Machine.access
      rw [hpoint]
    have hattached : (if uartIdMax ≤ uart then m.attached else false) = false := by
      by_cases hmax : uartIdMax ≤ uart
      · rw [if_pos hmax, h.attached, decide_eq_false (by omega), Bool.and_false]
      · exact if_neg hmax
    have hperform : p.perform .finish = {} := if_pos hat.2.started
    rw [hat.1.owed]
    refine goes_of_moment hat.2.call (by unfold Machine.returning; rw [hpoint]) ?_
    rw [hperform, haccess]
    exact ⟨hattached, fun _ => rfl, hat.1.started.trans hat.2.started, rfl, rfl⟩
  · have haccess : m.access uart = { m with head := 0, point := .endTail } := by
      unfold Machine.access
      rw [hpoint]
    refine goes_of_silent haccess (by unfold Machine.returning; rw [hpoint]) ?_
    exact ⟨h.attached, h.empty, ⟨hat.started, hat.port, hat.owed⟩, rfl⟩
  · have haccess : m.access uart = { m with tail := 0, point := .endElems } := by
      unfold Machine.access
      rw [hpoint]
    refine goes_of_silent haccess (by unfold Machine.returning; rw [hpoint]) ?_
    exact ⟨h.attached, h.empty, ⟨hat.1.started, hat.1.port, hat.1.owed⟩, hat.2, rfl⟩
  · have haccess : m.access uart = { m with numElems := 0, point := .endStopped } := by
      unfold Machine.access
      rw [hpoint]
    -- the ring is empty again before the flag is cleared
    refine goes_of_silent haccess (by unfold Machine.returning; rw [hpoint]) ?_
    refine ⟨h.attached, h.empty, ⟨hat.1.started, hat.1.port, hat.1.owed⟩, ?_⟩
    simp only [hat.2.2]
    exact Machine.ring_nil _ hat.2.1 rfl
  -- the flag follows the port, which ended before
  · have haccess : m.access uart = { m with started := false }.leave := by
      unfold Machine.access
      rw [hpoint]
    rw [hat.1.owed]
    refine goes_of_owed (by unfold Machine.returning; rw [hpoint]) ?_
    rw [haccess]
    refine ⟨h.attached, h.empty, ⟨?_, ?_, rfl⟩, rfl⟩
    · rw [hat.1.port]
      rfl
    · rw [hat.1.port]
      exact hat.2

/-- Every access of `available` keeps the simulation. -/
theorem goes_available (h : Keeps uart m p owed)
    (hpoint : m.point = .availableStarted ∨ m.point = .availableElems) : Goes uart m p owed := by
  have hat := h.point
  unfold AtPoint at hat
  rcases hpoint with hpoint | hpoint <;> rw [hpoint] at hat <;> simp only at hat
  · refine goes_of_check .availableElems (some 0) h hat.1 hat.2
      (by unfold Machine.access; rw [hpoint])
      (by unfold Machine.returning; rw [hpoint]) (fun hasked => ⟨hat.1.goTo _, hasked.started,
        hasked.call, hasked.owed⟩) fun hoff => ⟨?_, rfl⟩
    exact congrArg some (if_neg (by rw [hoff]; exact Bool.false_ne_true))
  · refine goes_of_unchanged h hat.1 hat.2.call (by unfold Machine.access; rw [hpoint]) ?_ rfl
    have hanswer : p.answer .available = some (p.queue.length : Int) :=
      congrArg some (if_pos hat.2.started)
    unfold Machine.returning
    rw [hpoint, hanswer, ← hat.1.ring.numElems_eq]

/-- A call that finds no character. -/
theorem goes_of_empty {c : SerialCall} (next : Point) (h : Keeps uart m p owed)
    (hs : Settled m p owed) (hasked : Asked c m p owed)
    (haccess : m.access uart = if m.numElems = 0 then m.leave else m.goTo next)
    (hreturn : m.returning = if m.numElems = 0 then some (some (-1)) else none)
    (hnext : p.queue ≠ [] → AtPoint (m.goTo next) p owed)
    (hnone : p.queue = [] → p.answer c = some (-1) ∧ p.perform c = p) : Goes uart m p owed := by
  have hcount := hs.ring.numElems_eq
  by_cases hempty : m.numElems = 0
  · have hnil : p.queue = [] := List.length_eq_zero_iff.1 (by omega)
    rw [if_pos hempty] at haccess hreturn
    rw [← (hnone hnil).1] at hreturn
    exact goes_of_unchanged h hs hasked.call haccess hreturn (hnone hnil).2
  · have hsome : p.queue ≠ [] := fun hnil => by
      rw [hnil] at hcount
      exact hempty hcount
    rw [if_neg hempty] at haccess hreturn
    refine goes_of_same hreturn ?_
    rw [haccess]
    exact ⟨h.attached, h.empty, hnext hsome⟩

/-- The byte leaves the queue where the count is stored. -/
theorem goes_readStoreElems {value : UInt8} {numElems : Int} (h : Keeps uart m p owed)
    (hpoint : m.point = .readStoreElems value numElems) : Goes uart m p owed := by
  have hat := h.point
  unfold AtPoint at hat
  rw [hpoint] at hat
  simp only at hat
  have haccess : m.access uart = { m with numElems := numElems - 1 }.leave := by
    unfold Machine.access
    rw [hpoint]
  rcases hat.1.ring with ⟨place, htail, hring⟩
  -- nothing but this call takes from the queue, so the byte is still its first
  have hsome : p.queue ≠ [] := fun hnil => by
    have hfirst := hat.1.first
    rw [hnil] at hfirst
    cases hfirst
  have hanswer : p.answer .read = some (value.toNat : Int) := by
    refine congrArg some ((if_pos hat.1.asked.started).trans ?_)
    cases hqueue : p.queue with
    | nil => exact absurd hqueue hsome
    | cons c q =>
        have hfirst := hat.1.first
        rw [hqueue, List.head?_cons] at hfirst
        rw [← Option.some.inj hfirst]
        rfl
  have hperform : p.perform .read = { p with queue := p.queue.tail } :=
    if_pos hat.1.asked.started
  rw [hat.1.asked.owed]
  refine goes_of_return hat.1.asked.call ?_ ?_
  · unfold Machine.returning
    rw [hpoint, hanswer]
  · rw [haccess, hperform, hat.2]
    refine ⟨h.attached, fun hoff => ?_, ⟨hat.1.same, ?_, rfl⟩, rfl⟩
    · exact absurd (hat.1.asked.started.symm.trans hoff) Bool.noConfusion
    -- the tail was moved before, which makes the shorter count fit
    · have hrest := hring.tail hsome
      rw [← htail] at hrest
      exact hrest

/-- The accesses of `read`, which takes effect with the last one. -/
theorem goes_read (h : Keeps uart m p owed) (hpoint : m.point = .readStarted ∨
    m.point = .readEmpty ∨ m.point = .readTail ∨ (∃ tail, m.point = .readSlot tail) ∨
    (∃ value, m.point = .readNext value) ∨ (∃ value tail, m.point = .readStoreTail value tail) ∨
    (∃ value, m.point = .readElems value) ∨ ∃ value numElems,
      m.point = .readStoreElems value numElems) : Goes uart m p owed := by
  have hat := h.point
  unfold AtPoint at hat
  rcases hpoint with hpoint | hpoint | hpoint | ⟨tail, hpoint⟩ | ⟨value, hpoint⟩ |
    ⟨value, tail, hpoint⟩ | ⟨value, hpoint⟩ | ⟨value, numElems, hpoint⟩ <;>
    rw [hpoint] at hat <;> simp only at hat
  -- not started: the answer is -1 at once
  · refine goes_of_check .readEmpty (some (-1)) h hat.1 hat.2
      (by unfold Machine.access; rw [hpoint])
      (by unfold Machine.returning; rw [hpoint]) (fun hasked => ⟨hat.1.goTo _, hasked.started,
        hasked.call, hasked.owed⟩) fun hoff => ?_
    have hno : ¬p.started = true := by rw [hoff]; exact Bool.false_ne_true
    exact ⟨congrArg some (if_neg hno), if_neg hno⟩
  -- nothing there: the answer is -1, and that is the moment
  · refine goes_of_empty .readTail h hat.1 hat.2 (by unfold Machine.access; rw [hpoint])
      (by unfold Machine.returning; rw [hpoint]) (fun hsome => ⟨hat.1.goTo _,
        ⟨hat.2.started, hat.2.call, hat.2.owed⟩, hsome⟩) fun hnil => ⟨?_, ?_⟩
    · exact congrArg some ((if_pos hat.2.started).trans (by rw [hnil]; rfl))
    · refine (if_pos hat.2.started).trans ?_
      rw [hnil]
      exact congrArg (fun q => { p with queue := q }) hnil.symm
  -- the loads that follow change nothing, and the byte they fetch stays the first
  · have haccess : m.access uart = m.goTo (.readSlot m.tail) := by
      unfold Machine.access
      rw [hpoint]
    refine goes_of_silent haccess (by unfold Machine.returning; rw [hpoint]) ?_
    exact ⟨h.attached, h.empty, hat.1.goTo _, ⟨hat.2.1.started, hat.2.1.call, hat.2.1.owed⟩,
      hat.2.2, rfl⟩
  · have haccess : m.access uart = m.goTo (.readNext (m.buffer tail)) := by
      unfold Machine.access
      rw [hpoint]
    refine goes_of_same (by unfold Machine.returning; rw [hpoint]) ?_
    rw [haccess, hat.2.2.2]
    exact ⟨h.attached, h.empty, hat.1.goTo _, ⟨hat.2.1.started, hat.2.1.call, hat.2.1.owed⟩,
      hat.1.ring.head hat.2.2.1⟩
  · have haccess : m.access uart =
        m.goTo (.readStoreTail value (RingBufferN.nextIndex m.tail)) := by
      unfold Machine.access
      rw [hpoint]
    refine goes_of_silent haccess (by unfold Machine.returning; rw [hpoint]) ?_
    exact ⟨h.attached, h.empty, hat.1.goTo _, ⟨hat.2.1.started, hat.2.1.call, hat.2.1.owed⟩,
      hat.2.2, rfl⟩
  -- from this store on the ring is one byte behind its count
  · have haccess : m.access uart = { m with tail := tail, point := .readElems value } := by
      unfold Machine.access
      rw [hpoint]
    refine goes_of_silent haccess (by unfold Machine.returning; rw [hpoint]) ?_
    exact ⟨h.attached, h.empty, hat.1.started, ⟨hat.2.1.started, hat.2.1.call, hat.2.1.owed⟩,
      hat.2.2.1, m.tail, hat.2.2.2, hat.1.ring⟩
  · have haccess : m.access uart = m.goTo (.readStoreElems value m.numElems) := by
      unfold Machine.access
      rw [hpoint]
    refine goes_of_silent haccess (by unfold Machine.returning; rw [hpoint]) ?_
    exact ⟨h.attached, h.empty, ⟨hat.same, ⟨hat.asked.started, hat.asked.call, hat.asked.owed⟩,
      hat.first, hat.ring⟩, rfl⟩
  · exact goes_readStoreElems h hpoint

/-- Every access of `peek` keeps the simulation. -/
theorem goes_peek (h : Keeps uart m p owed) (hpoint : m.point = .peekStarted ∨
    m.point = .peekEmpty ∨ m.point = .peekTail ∨ ∃ tail, m.point = .peekSlot tail) :
    Goes uart m p owed := by
  have hat := h.point
  unfold AtPoint at hat
  rcases hpoint with hpoint | hpoint | hpoint | ⟨tail, hpoint⟩ <;>
    rw [hpoint] at hat <;> simp only at hat
  -- as `read`, without the two stores
  · refine goes_of_check .peekEmpty (some (-1)) h hat.1 hat.2
      (by unfold Machine.access; rw [hpoint])
      (by unfold Machine.returning; rw [hpoint]) (fun hasked => ⟨hat.1.goTo _, hasked.started,
        hasked.call, hasked.owed⟩) fun hoff => ⟨?_, rfl⟩
    exact congrArg some (if_neg (by rw [hoff]; exact Bool.false_ne_true))
  · refine goes_of_empty .peekTail h hat.1 hat.2 (by unfold Machine.access; rw [hpoint])
      (by unfold Machine.returning; rw [hpoint]) (fun hsome => ⟨hat.1.goTo _,
        ⟨hat.2.started, hat.2.call, hat.2.owed⟩, hsome⟩) fun hnil => ⟨?_, rfl⟩
    exact congrArg some ((if_pos hat.2.started).trans (by rw [hnil]; rfl))
  · have haccess : m.access uart = m.goTo (.peekSlot m.tail) := by
      unfold Machine.access
      rw [hpoint]
    refine goes_of_silent haccess (by unfold Machine.returning; rw [hpoint]) ?_
    exact ⟨h.attached, h.empty, hat.1.goTo _, ⟨hat.2.1.started, hat.2.1.call, hat.2.1.owed⟩,
      hat.2.2, rfl⟩
  · have hanswer : p.answer .peek = some ((m.buffer tail).toNat : Int) := by
      refine congrArg some ((if_pos hat.2.1.started).trans ?_)
      have hfirst := hat.1.ring.head hat.2.2.1
      cases hqueue : p.queue with
      | nil => exact absurd hqueue hat.2.2.1
      | cons c q =>
          rw [hqueue, List.head?_cons] at hfirst
          rw [hat.2.2.2, ← Option.some.inj hfirst]
          rfl
    refine goes_of_unchanged h hat.1 hat.2.1.call (by unfold Machine.access; rw [hpoint]) ?_ rfl
    unfold Machine.returning
    rw [hpoint, hanswer]

/-- Every access keeps the relation. -/
theorem keeps_access (h : Keeps uart m p owed) : Goes uart m p owed := by
  have hat := h.point
  unfold AtPoint at hat
  -- by the point of the call; each kind of call has its own lemma
  cases hpoint : m.point with
  | idle =>
      have haccess : m.access uart = m := by
        unfold Machine.access
        rw [hpoint]
      refine goes_of_silent haccess (by unfold Machine.returning; rw [hpoint]) ?_
      exact h
  | beginHead | beginTail | beginElems | beginAttach | beginStarted =>
      exact goes_begin h (by simp [hpoint])
  | endStarted | endDetach | endHead | endTail | endElems | endStopped =>
      exact goes_end h (by simp [hpoint])
  | availableStarted | availableElems => exact goes_available h (by simp [hpoint])
  | readStarted | readEmpty | readTail => exact goes_read h (by simp [hpoint])
  | readSlot tail => exact goes_read h (by simp [hpoint])
  | readNext value => exact goes_read h (by simp [hpoint])
  | readStoreTail value tail => exact goes_read h (by simp [hpoint])
  | readElems value => exact goes_read h (by simp [hpoint])
  | readStoreElems value numElems => exact goes_read h (by simp [hpoint])
  | peekStarted | peekEmpty | peekTail => exact goes_peek h (by simp [hpoint])
  | peekSlot tail => exact goes_peek h (by simp [hpoint])
  | writeStarted =>
      -- a write to a port that is not started begins it
      rw [hpoint] at hat
      simp only at hat
      by_cases hstarted : m.started = true
      · have hon : p.started = true := by rwa [← hat.1.started]
        exact goes_of_unchanged h hat.1 hat.2
          (by unfold Machine.access; rw [hpoint]; exact if_pos hstarted)
          (by unfold Machine.returning; rw [hpoint]; exact if_pos hstarted) (if_pos hon)
      · have haccess : m.access uart = m.goTo .beginHead := by
          unfold Machine.access
          rw [hpoint]
          exact if_neg hstarted
        refine goes_of_same (by unfold Machine.returning; rw [hpoint]; exact if_neg hstarted) ?_
        rw [hat.1.started, Bool.not_eq_true] at hstarted
        rw [haccess]
        exact ⟨h.attached, h.empty, hat.1.goTo _, Or.inr ⟨hat.2, hstarted⟩⟩

/-- A call starts where it has changed nothing yet. -/
theorem keeps_call (h : Keeps uart m p owed) (c : SerialCall) :
    Keeps uart (Machine.step uart m (.call c)) p owed := by
  -- a call that comes while another runs is none of the task's
  by_cases hidle : m.point = .idle
  · have hat := h.point
    unfold AtPoint at hat
    rw [hidle] at hat
    simp only at hat
    have hstep : Machine.step uart m (.call c) = { m with call := some c, point := c.entry } :=
      if_pos hidle
    have hs : Settled { m with call := some c, point := c.entry } p owed :=
      ⟨hat.1.started, hat.1.ring, hat.1.owed⟩
    rw [hstep]
    refine ⟨h.attached, h.empty, ?_⟩
    cases c with
    | begin => exact ⟨hs, Or.inl rfl⟩
    | finish => exact ⟨hs, rfl⟩
    | available => exact ⟨hs, rfl⟩
    | read => exact ⟨hs, rfl⟩
    | peek => exact ⟨hs, rfl⟩
    | write => exact ⟨hs, rfl⟩
  · have hstep : Machine.step uart m (.call c) = m := if_neg hidle
    rw [hstep]
    exact h

/-- In every run in which no interrupt stores a character where an update is not complete, the
calls and interrupts are those of a queue. -/
theorem explained_of_undisturbed (uart : Nat) (es : List SerialEvent)
    (h : EventRun.Always (Machine.step uart) Undisturbed {} es) : Explained uart es := by
  refine Linearization.explains_of_simulation (R := Keeps uart) ?_ ?_ h
  · intro m p owed e hkeeps hu
    cases e with
    | access => exact keeps_access hkeeps
    | call c =>
        exact Linearization.stays_of_follows
          ⟨fun b hb => absurd hb (by simp [accesses, Machine.returned]), keeps_call hkeeps c⟩
    | receive cs =>
        exact Linearization.stays_of_follows
          ⟨fun b hb => absurd hb (by simp [accesses, Machine.returned]),
            keeps_receive hkeeps cs hu⟩
  · exact ⟨rfl, fun _ => rfl, ⟨rfl, Machine.ring_nil _ rfl rfl, rfl⟩, rfl⟩

end Simulation

/-- A character that is received between the load and the store of `_numElems`. -/
def lostCount : List SerialEvent :=
  [[.call .begin], List.replicate 5 .access, [.receive [1], .call .read],
    List.replicate 7 .access, [.receive [2], .access, .call .available, .access, .access]].flatten

/-- It is in the buffer, and nothing is available. -/
theorem count_is_lost : ¬∀ uart es, Explained uart es := by
  intro hall
  exact absurd (hall 1 lostCount) (by decide +kernel)

/-- Characters are received at other places of a `read`, and of a `begin` of a started port. -/
def shared : List SerialEvent :=
  [[.call .begin], List.replicate 5 .access, [.receive [1, 2], .call .read],
    List.replicate 6 .access, [.receive [3], .access, .access, .call .begin, .receive [4]],
    List.replicate 3 .access, [.receive [5], .access, .access, .call .read],
    List.replicate 8 .access].flatten

theorem explained_of_undisturbed_shared : Explained 1 shared :=
  explained_of_undisturbed 1 shared (by decide +kernel)

/-! ### A call that is left alone -/

section Alone

variable {ι : Type*} [DecidableEq ι]

/-- The same call as one of an object. -/
def SerialCall.on (i : ι) : SerialCall → Event ι
  | .begin => .begin i
  | .finish => .finish i
  | .available => .available i
  | .read => .read i
  | .peek => .peek i
  | .write => .write i

/-- What a call on an object returns. -/
def World.returns (w : World ι) (i : ι) : SerialCall → Option Int
  | .available => some (w.available i)
  | .read => some (w.read i).1
  | .peek => some (w.peek i)
  | _ => none

/-- The variables of an object on a UART. -/
def World.machine (w : World ι) (i : ι) (uart : Nat) : Machine where
  buffer := (w.serials i).rxBuffer.buffer
  head := (w.serials i).rxBuffer.head
  tail := (w.serials i).rxBuffer.tail
  numElems := (w.serials i).rxBuffer.numElems
  started := (w.serials i).started
  attached := decide (uart < uartIdMax ∧ w.receiver uart = some i)

/-- A call to its end, with what it returns. -/
def Machine.complete (uart : Nat) : Nat → Machine → Option (Machine × Option Int)
  | 0, _ => none
  | n + 1, m =>
    match m.returning with
    | some b => some (m.access uart, b)
    | none => Machine.complete uart n (m.access uart)

/-- The object begins, in the table where there is a place. -/
theorem complete_begin (uart : Nat) (m : Machine) (hidle : m.point = .idle) :
    Machine.complete uart 9 (Machine.step uart m (.call .begin)) = some ({ m with
      head := 0, tail := 0, numElems := 0, started := true, call := none, point := .idle
      attached := if uartIdMax ≤ uart then m.attached else true }, none) := by
  rw [Machine.step, if_pos hidle]
  rfl

/-- `end` without interruption stops the serial. -/
theorem complete_finish (uart : Nat) (m : Machine) (hidle : m.point = .idle)
    (hcall : m.call = none) :
    Machine.complete uart 9 (Machine.step uart m (.call .finish)) =
      some (if m.started then { m with
        head := 0, tail := 0, numElems := 0, started := false
        attached := if uartIdMax ≤ uart then m.attached else false } else m, none) := by
  rw [Machine.step, if_pos hidle]
  rcases m with ⟨buffer, head, tail, numElems, started, attached, call, point⟩
  simp only at hidle hcall
  subst hidle hcall
  cases started with
  | false => rfl
  | true => rfl

/-- `available` without interruption gives the count. -/
theorem complete_available (uart : Nat) (m : Machine) (hidle : m.point = .idle)
    (hcall : m.call = none) :
    Machine.complete uart 9 (Machine.step uart m (.call .available)) =
      some (m, some (if m.started then m.numElems else 0)) := by
  rw [Machine.step, if_pos hidle]
  rcases m with ⟨buffer, head, tail, numElems, started, attached, call, point⟩
  simp only at hidle hcall
  subst hidle hcall
  cases started with
  | false => rfl
  | true => rfl

/-- `read` without interruption takes the first character. -/
theorem complete_read (uart : Nat) (m : Machine) (hidle : m.point = .idle)
    (hcall : m.call = none) :
    Machine.complete uart 9 (Machine.step uart m (.call .read)) =
      some (if m.started = true ∧ m.numElems ≠ 0 then
        ({ m with tail := RingBufferN.nextIndex m.tail, numElems := m.numElems - 1 },
          some ((m.buffer m.tail).toNat : Int)) else (m, some (-1))) := by
  rw [Machine.step, if_pos hidle]
  rcases m with ⟨buffer, head, tail, numElems, started, attached, call, point⟩
  simp only at hidle hcall
  subst hidle hcall
  cases started with
  | false => rfl
  | true =>
      by_cases hempty : numElems = 0
      · subst hempty
        rfl
      · rw [if_pos ⟨rfl, hempty⟩]
        simp [Machine.complete, Machine.returning, Machine.access, Machine.goTo, Machine.leave,
          SerialCall.entry, hempty]

/-- `peek` without interruption gives the first character. -/
theorem complete_peek (uart : Nat) (m : Machine) (hidle : m.point = .idle)
    (hcall : m.call = none) :
    Machine.complete uart 9 (Machine.step uart m (.call .peek)) =
      some (m, some (if m.started = true ∧ m.numElems ≠ 0 then
        ((m.buffer m.tail).toNat : Int) else -1)) := by
  rw [Machine.step, if_pos hidle]
  rcases m with ⟨buffer, head, tail, numElems, started, attached, call, point⟩
  simp only at hidle hcall
  subst hidle hcall
  cases started with
  | false => rfl
  | true =>
      by_cases hempty : numElems = 0
      · subst hempty
        rfl
      · rw [if_pos ⟨rfl, hempty⟩]
        simp [Machine.complete, Machine.returning, Machine.access, Machine.goTo, Machine.leave,
          SerialCall.entry, hempty]

/-- `write` without interruption begins a serial that is not. -/
theorem complete_write (uart : Nat) (m : Machine) (hidle : m.point = .idle)
    (hcall : m.call = none) :
    Machine.complete uart 9 (Machine.step uart m (.call .write)) =
      some (if m.started then m else { m with
        head := 0, tail := 0, numElems := 0, started := true
        attached := if uartIdMax ≤ uart then m.attached else true }, none) := by
  rw [Machine.step, if_pos hidle]
  rcases m with ⟨buffer, head, tail, numElems, started, attached, call, point⟩
  simp only at hidle hcall
  subst hidle hcall
  cases started with
  | false => rfl
  | true => rfl

variable (printfPort : Nat) (w : World ι) (i : ι)

/-- The variables behind `begin_`. -/
theorem machine_begin : (w.begin_ printfPort i).machine i (w.uart printfPort i) =
    { w.machine i (w.uart printfPort i) with
      head := 0, tail := 0, numElems := 0, started := true
      attached := if uartIdMax ≤ w.uart printfPort i then
        (w.machine i (w.uart printfPort i)).attached else true } := by
  unfold World.machine
  rw [begin_serials, Function.update_self]
  by_cases hmax : uartIdMax ≤ w.uart printfPort i
  · have hno : ¬w.uart printfPort i < uartIdMax := by omega
    simp only [if_pos hmax, hno, false_and]
    rfl
  · rw [begin_receiver printfPort w i _ (by omega)]
    have hmine : w.uart printfPort i < uartIdMax := by omega
    simp only [if_neg hmax, hmine, if_true, and_self, decide_true]
    rfl

/-- `end` empties the machine of its serial and detaches it. -/
theorem machine_end (h : (w.serials i).started = true) :
    (w.end_ printfPort i).machine i (w.uart printfPort i) =
      { w.machine i (w.uart printfPort i) with
        head := 0, tail := 0, numElems := 0, started := false
        attached := if uartIdMax ≤ w.uart printfPort i then
          (w.machine i (w.uart printfPort i)).attached else false } := by
  unfold World.machine
  rw [end_serials printfPort w i h, Function.update_self]
  by_cases hmax : uartIdMax ≤ w.uart printfPort i
  · have hno : ¬w.uart printfPort i < uartIdMax := by omega
    simp only [if_pos hmax, hno, false_and]
    rfl
  · rw [end_receiver printfPort w i h _ (by omega)]
    simp only [if_neg hmax, if_true, reduceCtorEq, and_false, decide_false]
    rfl

/-- The variables behind a read of what is there. -/
theorem machine_read (hstarted : (w.serials i).started = true)
    (hsome : (w.serials i).rxBuffer.numElems ≠ 0) :
    ((w.read i).2.machine i (w.uart printfPort i), some (w.read i).1) =
      ({ w.machine i (w.uart printfPort i) with
          tail := RingBufferN.nextIndex (w.machine i (w.uart printfPort i)).tail
          numElems := (w.machine i (w.uart printfPort i)).numElems - 1 },
        some (((w.machine i (w.uart printfPort i)).buffer
          (w.machine i (w.uart printfPort i)).tail).toNat : Int)) := by
  have hfields := (w.serials i).rxBuffer.readChar_fields hsome
  have hread : w.read i = ((w.serials i).rxBuffer.readChar.1,
      w.put i { w.serials i with rxBuffer := (w.serials i).rxBuffer.readChar.2 }) :=
    if_pos hstarted
  have hcount : (((w.serials i).rxBuffer.numElems - 1 : Nat) : Int) =
      ((w.serials i).rxBuffer.numElems : Int) - 1 := by omega
  rw [hread]
  unfold World.machine World.put
  simp only [Function.update_self, hfields, hcount]
  rfl

/-- A call that no interrupt comes into is the method. -/
theorem uninterrupted (c : SerialCall) :
    Machine.complete (w.uart printfPort i) 9
        (Machine.step (w.uart printfPort i) (w.machine i (w.uart printfPort i)) (.call c)) =
      some ((step printfPort w (c.on i)).machine i (w.uart printfPort i), w.returns i c) := by
  have hstarted : (w.machine i (w.uart printfPort i)).started = (w.serials i).started := rfl
  have hcount : (w.machine i (w.uart printfPort i)).numElems =
      (w.serials i).rxBuffer.numElems := rfl
  -- one call at a time, each run from its entry to its return
  cases c with
  | begin =>
      rw [complete_begin _ _ rfl]
      exact congrArg (fun m => some (m, none)) (machine_begin printfPort w i).symm
  | finish =>
      rw [complete_finish _ _ rfl rfl, hstarted]
      by_cases hon : (w.serials i).started = true
      · rw [if_pos hon]
        exact congrArg (fun m => some (m, none)) (machine_end printfPort w i hon).symm
      · have hsame : step printfPort w (SerialCall.finish.on i) = w :=
          end_idle printfPort w i (Bool.eq_false_iff.2 hon)
        rw [if_neg hon, hsame]
        rfl
  | available =>
      rw [complete_available _ _ rfl rfl, hstarted, hcount]
      rfl
  | read =>
      rw [complete_read _ _ rfl rfl, hstarted, hcount]
      -- the call looks at the flag first and at the count then
      by_cases hon : (w.serials i).started = true
      · by_cases hempty : (w.serials i).rxBuffer.numElems = 0
        · -- Nothing is there, and nothing changes.
          have hnone : (w.serials i).rxBuffer.readChar = (-1, (w.serials i).rxBuffer) :=
            dif_pos (beq_iff_eq.2 hempty)
          have hread : w.read i = (-1, w) := by
            unfold World.read World.put
            simp only [if_pos hon, hnone]
            exact congrArg (fun f => ((-1 : Int), { w with serials := f }))
              (Function.update_eq_self i w.serials)
          rw [if_neg fun hboth => hboth.2 (by rw [hempty]; rfl)]
          unfold World.returns step SerialCall.on
          simp only [hread]
        · have hboth : (w.serials i).started = true ∧
              ((w.serials i).rxBuffer.numElems : Int) ≠ 0 := ⟨hon, by omega⟩
          rw [if_pos hboth]
          exact congrArg some (machine_read printfPort w i hon hempty).symm
      · have hread : w.read i = (-1, w) := if_neg hon
        rw [if_neg fun hboth => hon hboth.1]
        unfold World.returns step SerialCall.on
        simp only [hread]
  | peek =>
      rw [complete_peek _ _ rfl rfl, hstarted, hcount]
      refine congrArg (fun a => some (w.machine i (w.uart printfPort i), some a)) ?_
      unfold World.peek RingBufferN.peek RingBufferN.isEmpty
      by_cases hon : (w.serials i).started = true
      · by_cases hempty : (w.serials i).rxBuffer.numElems = 0
        · rw [if_neg fun hboth => hboth.2 (by rw [hempty]; rfl), if_pos hon,
            if_pos (beq_iff_eq.2 hempty)]
        · rw [if_pos ⟨hon, by omega⟩, if_pos hon, if_neg fun he => hempty (beq_iff_eq.1 he)]
          rfl
      · rw [if_neg fun hboth => hon hboth.1, if_neg hon]
  | write =>
      rw [complete_write _ _ rfl rfl, hstarted]
      unfold step SerialCall.on World.write
      by_cases hon : (w.serials i).started = true
      · simp only [if_pos hon]
        rfl
      · simp only [if_neg hon]
        exact congrArg (fun m => some (m, none)) (machine_begin printfPort w i).symm

end Alone

end Core.Serial

end ArduinoBeken
