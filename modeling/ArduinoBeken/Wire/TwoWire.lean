import Mathlib.Data.List.Basic

/-!
# The I2C Object

`TwoWire` with its fields, under the names of the source without `m_`, and the
functions on its two buffers. A transmit buffer is the list of the bytes up to its
length.

## Main definitions

* `TwoWire`: The object.
* `TwoWire.beginTransmission`, `TwoWire.write`, `TwoWire.available`,
  `TwoWire.read`, `TwoWire.peek`: The functions on the buffers.
* `TwoWire.reads`: What successive calls of `read` return.

## Theorems

* `reads_length`: There are as many as `available` says, if the bounds are kept.
* `reads_eq_take`: What the reads return behind a reception.
-/

namespace ArduinoBeken

namespace Wire

/-- The size of each buffer. -/
def bufferSize : Nat := 64

/-- The object. A handle or callback is there or not. -/
structure TwoWire where
  address : Nat := 0
  initialized : Bool := false
  slave_mode : Bool := false
  slave_thread_running : Bool := false
  slave_thread : Bool := false
  queue_init : Bool := false
  next_slave_event_write : Bool := false
  tx_buffer : List UInt8 := []
  request_pending : Bool := false
  rx_buffer : List UInt8 := []
  rx_length : Nat := 0
  rx_index : Nat := 0
  frequency : Nat := 100000
  on_receive : Bool := false
  on_request : Bool := false
deriving DecidableEq, Repr

namespace TwoWire

/-- `beginTransmission`. -/
def beginTransmission (t : TwoWire) (address : Nat) : TwoWire :=
  { t with address := address, tx_buffer := [] }

/-- `write(data)`, and how many bytes it takes. -/
def write (t : TwoWire) (data : UInt8) : TwoWire × Nat :=
  if bufferSize ≤ t.tx_buffer.length then (t, 0)
  else ({ t with tx_buffer := t.tx_buffer ++ [data] }, 1)

/-- `available`, of the bytes received. -/
def available (t : TwoWire) : Int :=
  (t.rx_length : Int) - t.rx_index

/-- `read`, with `none` for -1. -/
def read (t : TwoWire) : TwoWire × Option UInt8 :=
  if t.rx_length ≤ t.rx_index then (t, none)
  else ({ t with rx_index := t.rx_index + 1 }, some ((t.rx_buffer[t.rx_index]?).getD 0))

/-- `peek`. -/
def peek (t : TwoWire) : Option UInt8 :=
  t.read.2

/-- What so many calls of `read` return before the first -1. -/
def readsWithin : Nat → TwoWire → List UInt8
  | 0, _ => []
  | n + 1, t =>
    match t.read with
    | (_, none) => []
    | (t, some data) => data :: readsWithin n t

/-- What successive calls of `read` return before the first -1. They end after as
many as the length. -/
def reads (t : TwoWire) : List UInt8 :=
  t.readsWithin t.rx_length

theorem readsWithin_length (n : Nat) (t : TwoWire) :
    (readsWithin n t).length = min n (t.rx_length - t.rx_index) := by
  induction n generalizing t with
  | zero => rw [readsWithin, List.length_nil, Nat.zero_min]
  | succ n ih =>
      by_cases hend : t.rx_length ≤ t.rx_index
      · have hread : t.read = (t, none) := if_pos hend
        simp only [readsWithin, hread, List.length_nil]
        omega
      · have hread : t.read = ({ t with rx_index := t.rx_index + 1 },
            some ((t.rx_buffer[t.rx_index]?).getD 0)) := if_neg hend
        simp only [readsWithin, hread, List.length_cons, ih]
        omega

/-- As many bytes can be read as `available` says exactly if the index is within
the length. -/
theorem reads_length (t : TwoWire) :
    t.available = t.reads.length ↔ t.rx_index ≤ t.rx_length := by
  rw [reads, readsWithin_length, available]
  omega

/-- As long as the length is within the buffer, reads return what is between the
index and the length. -/
theorem readsWithin_eq (n : Nat) (t : TwoWire) (h : t.rx_length ≤ t.rx_buffer.length) :
    readsWithin n t = ((t.rx_buffer.take t.rx_length).drop t.rx_index).take n := by
  -- induction on the reads that are still asked for
  induction n generalizing t with
  | zero => rw [readsWithin, List.take_zero]
  | succ n ih =>
      have htake : (t.rx_buffer.take t.rx_length).length = t.rx_length := by
        rw [List.length_take]
        omega
      by_cases hend : t.rx_length ≤ t.rx_index
      · have hread : t.read = (t, none) := if_pos hend
        have hdrop : (t.rx_buffer.take t.rx_length).drop t.rx_index = [] :=
          List.drop_eq_nil_of_le (by omega)
        simp only [readsWithin, hread, hdrop, List.take_nil]
      · have hread : t.read = ({ t with rx_index := t.rx_index + 1 },
            some ((t.rx_buffer[t.rx_index]?).getD 0)) := if_neg hend
        have hindex : t.rx_index < t.rx_buffer.length := by omega
        have hbyte : (t.rx_buffer[t.rx_index]?).getD 0 = t.rx_buffer[t.rx_index] := by
          rw [List.getElem?_eq_getElem hindex, Option.getD_some]
        have hdrop := List.drop_eq_getElem_cons (l := t.rx_buffer.take t.rx_length)
          (i := t.rx_index) (by omega)
        simp only [readsWithin, hread, ih { t with rx_index := t.rx_index + 1 } h, hbyte]
        rw [hdrop, List.take_succ_cons, List.getElem_take]

/-- With the index at zero, successive reads return what was received. -/
theorem reads_eq_take (t : TwoWire) (hindex : t.rx_index = 0)
    (hlength : t.rx_length ≤ t.rx_buffer.length) : t.reads = t.rx_buffer.take t.rx_length := by
  rw [reads, readsWithin_eq _ t hlength, hindex, List.drop_zero, List.take_take, Nat.min_self]

end TwoWire

end Wire

end ArduinoBeken
