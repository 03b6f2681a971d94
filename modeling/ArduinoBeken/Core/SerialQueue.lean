import ArduinoBeken.Core.HardwareSerial

/-!
# The Queue of a Serial Port

What a sketch should see of a `HardwareSerial` that no other object shares a UART with: a
queue of 256 characters. `begin` empties it, `read` takes from its front, and what is
received is put at its end, as far as there is room.

A character is received when an interrupt takes it from the UART. Characters that wait in
the UART meanwhile are what a later interrupt finds.

From one `begin` to the next, the characters that find room come out once and in their
order, and nothing else does (`delivered_eq`). What the object has to do with the queue is
the subject of `Core.SerialAccesses`.

## Main definitions

* `SerialCall`: The calls.
* `Port`: The queue, with what they do to it and answer.
* `delivered`, `accepted`: What is read in a run, and what finds room.

## Theorems

* `delivered_eq`: What becomes of the characters.
-/

namespace ArduinoBeken

namespace Core.Serial

/-- The calls of one object. -/
inductive SerialCall where
  | begin
  | finish
  | available
  | read
  | peek
  | write
deriving DecidableEq, Repr

/-- `RingBufferN<256>`. -/
def rxSize : Nat := 256

/-- A port that is started or not, with the characters to be read. -/
structure Port where
  started : Bool := false
  queue : List UInt8 := []
deriving DecidableEq, Repr

/-- What a call does. A port that is not started is begun by a write. -/
def Port.perform (p : Port) : SerialCall → Port
  | .begin => { started := true, queue := [] }
  | .finish => if p.started then { started := false, queue := [] } else p
  | .read => if p.started then { p with queue := p.queue.tail } else p
  | .write => if p.started then p else { started := true, queue := [] }
  | .available | .peek => p

/-- What a call returns. -/
def Port.answer (p : Port) : SerialCall → Option Int
  | .available => some (if p.started then p.queue.length else 0)
  | .read | .peek => some (if p.started then RingBufferN.firstOf p.queue else -1)
  | _ => none

/-- Characters that are received on a UART. A full queue takes no more. -/
def Port.receive (uart : Nat) (p : Port) (cs : List UInt8) : Port :=
  if p.started = true ∧ uart < uartIdMax then { p with queue := (p.queue ++ cs).take rxSize }
  else p

/-! ### What becomes of the characters -/

/-- A call, or an interrupt with the characters it finds. -/
inductive PortEvent where
  | call (c : SerialCall)
  | receive (cs : List UInt8)
deriving DecidableEq, Repr

/-- One event at the port. -/
def Port.step (uart : Nat) (p : Port) : PortEvent → Port
  | .call c => p.perform c
  | .receive cs => p.receive uart cs

/-- An event that does not begin or end a started port. -/
def PortEvent.inSession : PortEvent → Bool
  | .call .begin | .call .finish => false
  | _ => true

/-- The characters received that find room, which are the first ones of each time. -/
def accepted (uart : Nat) (p : Port) : List PortEvent → List UInt8
  | [] => []
  | .receive cs :: es =>
    (if uart < uartIdMax then cs.take (rxSize - p.queue.length) else []) ++
      accepted uart (p.receive uart cs) es
  | .call c :: es => accepted uart (p.perform c) es

/-- The characters that are read from a port. -/
def delivered (uart : Nat) (p : Port) : List PortEvent → List UInt8
  | [] => []
  | .call .read :: es => p.queue.head?.toList ++ delivered uart (p.perform .read) es
  | e :: es => delivered uart (p.step uart e) es

theorem step_started (uart : Nat) (p : Port) (e : PortEvent) (hon : p.started = true)
    (he : e.inSession = true) : (p.step uart e).started = true := by
  cases e with
  | receive cs =>
      by_cases hmine : p.started = true ∧ uart < uartIdMax
      · exact (congrArg Port.started (if_pos hmine)).trans hon
      · exact (congrArg Port.started (if_neg hmine)).trans hon
  | call c =>
      cases c with
      | finish => exact absurd he Bool.false_ne_true
      | begin => rfl
      | available => exact hon
      | peek => exact hon
      | read => exact (congrArg Port.started (if_pos hon)).trans hon
      | write => exact (congrArg Port.started (if_pos hon)).trans hon

/-- From one `begin` to the next, what is read and what is left in the queue are the
characters that were accepted, each once and in their order. -/
theorem delivered_eq (uart : Nat) (p : Port) (es : List PortEvent) (hon : p.started = true)
    (hfits : p.queue.length ≤ rxSize) (hes : ∀ e ∈ es, e.inSession = true) :
    delivered uart p es ++ (EventRun.run (Port.step uart) p es).queue =
      p.queue ++ accepted uart p es := by
  induction es generalizing p with
  | nil => exact (List.append_nil _).symm
  | cons e es ih =>
      -- By induction on the run: the queue holds what is accepted and not yet delivered.
      have he := hes e List.mem_cons_self
      have hrest := fun hfits' => ih (p.step uart e) (step_started uart p e hon he) hfits'
        fun e' he' => hes e' (List.mem_cons_of_mem e he')
      cases e with
      | call c =>
          cases c with
          | begin => exact absurd he Bool.false_ne_true
          | finish => exact absurd he Bool.false_ne_true
          | available => exact hrest hfits
          | peek => exact hrest hfits
          | write =>
              -- A write begins a port only if it is not started.
              have hstep : p.step uart (.call .write) = p := if_pos hon
              have hperform : p.perform .write = p := hstep
              rw [hstep] at hrest
              simp only [delivered, accepted, EventRun.run_cons, hstep, hperform]
              exact hrest hfits
          | read =>
              have hstep : p.step uart (.call .read) = { p with queue := p.queue.tail } :=
                if_pos hon
              have hperform : p.perform .read = { p with queue := p.queue.tail } := hstep
              rw [hstep] at hrest
              simp only [delivered, accepted, EventRun.run_cons, hstep, hperform]
              cases hqueue : p.queue with
              | nil =>
                  rw [hqueue] at hrest
                  exact hrest (Nat.zero_le _)
              | cons c q =>
                  rw [hqueue] at hrest hfits
                  exact congrArg (c :: ·) (hrest (Nat.le_of_succ_le hfits))
      | receive cs =>
          by_cases hmine : uart < uartIdMax
          · have hstep : p.step uart (.receive cs) =
                { p with queue := (p.queue ++ cs).take rxSize } := if_pos ⟨hon, hmine⟩
            have hreceive : p.receive uart cs =
                { p with queue := (p.queue ++ cs).take rxSize } := hstep
            rw [hstep] at hrest
            simp only [delivered, accepted, EventRun.run_cons, hstep, hreceive, if_pos hmine]
            -- What the queue has room for is a prefix of what came, and that is what was accepted.
            rw [hrest (by rw [List.length_take]; exact Nat.min_le_left _ _), List.take_append,
              List.take_of_length_le hfits, List.append_assoc]
          · have hstep : p.step uart (.receive cs) = p := if_neg fun hno => hmine hno.2
            have hreceive : p.receive uart cs = p := hstep
            rw [hstep] at hrest
            simp only [delivered, accepted, EventRun.run_cons, hstep, hreceive, if_neg hmine,
              List.nil_append]
            exact hrest hfits

end Core.Serial

end ArduinoBeken
