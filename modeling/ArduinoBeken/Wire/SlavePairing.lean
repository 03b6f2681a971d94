import ArduinoBeken.Library.Run
import ArduinoBeken.Wire.TwoWire

/-!
# Transfers and Their Messages

The SDK posts a message for every transfer of the slave that finishes, and the
service loop waits for one behind each. Messages come in the order of the
transfers, but a message may be late: then the wait ends without it, and it
is the one that a later transfer finds.

Here the loop goes from one place to the next at a `slave` event, and a `post`
event brings the oldest message on its way into the queue, so any delay is an
order of events. The world keeps a record of the transfers that finished, of the
calls of `onReceive`, and of the messages that were taken for an outcome.

A transfer is paired with its own message exactly when that message is the only
one left as the wait ends (`paired_iff`). A transfer towards the master may also go
without, as long as nothing else is in the queue.

## Main definitions

* `Transfer`, `Message`, `Bus`: What goes over the bus, and what is posted.
* `Place`, `World`, `Event`, `World.service`: The service loop.
* `Paired`: The law.
* `InTime`: No wait ends with the wrong message or without its own.
* `Sound`: What is left over in between.

## Theorems

* `received_iff`, `answered_iff`: The ends of the two waits.
* `paired_iff`: The law along a run.
-/

namespace ArduinoBeken

namespace Wire

namespace Pairing

/-! ### The bus -/

/-- `i2c_work_mode_t` of a slave. -/
inductive WorkMode where
  | slaveWrite
  | slaveRead
deriving DecidableEq, Repr

/-- A transfer that has finished, with the bytes that went over the bus. -/
structure Transfer where
  mode : WorkMode
  data : List UInt8
deriving DecidableEq, Repr

/-- `i2c_cb_param_t`. The number of the transfer is kept for the record and is not
in the message. -/
structure Message where
  transfer : Nat
  work_mode : WorkMode
  data_len : Nat
deriving DecidableEq, Repr

/-- The message that the SDK posts for a transfer. -/
def messageOf (number : Nat) (t : Transfer) : Message :=
  ⟨number, t.mode, t.data.length⟩

/-- The messages on their way and in the queue, the transfers so far, the calls
of `onReceive` with their argument and the bytes that can be read in them, and
each message taken for an outcome, with the transfer it was taken for. -/
structure Bus where
  inFlight : List Message := []
  queue : List Message := []
  transfers : List Transfer := []
  calls : List (Nat × List UInt8) := []
  outcomes : List (Nat × Nat) := []
deriving DecidableEq, Repr

namespace Bus

/-- The room `initSlaveEventQueue` makes. -/
def queueSize : Nat := 10

/-- The messages that are still to be popped, the oldest in front. -/
def pending (b : Bus) : List Message :=
  b.queue ++ b.inFlight

/-- A transfer finishes, and its message is on its way. -/
def finish (b : Bus) (t : Transfer) : Bus :=
  { b with
    transfers := b.transfers ++ [t]
    inFlight := b.inFlight ++ [messageOf b.transfers.length t] }

/-- The SDK posts the oldest message on its way, once there is room. -/
def post (b : Bus) : Bus :=
  match b.inFlight with
  | m :: rest =>
    if b.queue.length < queueSize then { b with inFlight := rest, queue := b.queue ++ [m] } else b
  | [] => b

/-- A message is taken for the outcome of the last transfer. -/
def take (b : Bus) (m : Message) : Bus :=
  { b with outcomes := b.outcomes ++ [(b.transfers.length - 1, m.transfer)] }

end Bus

/-! ### The service loop -/

/-- A place in `slaveServiceTask`. `second` says that the part is the second of the
two, where that still matters, and in `answered` and `received` the loop waits for a
message. -/
inductive Place where
  | top
  | request (second : Bool)
  | inRequest (second : Bool)
  | answering (second : Bool)
  | answered (second : Bool)
  | receive (second : Bool)
  | receiving (second : Bool)
  | received
  | inReceive
  | bottom (handled : Bool)
  | ended
deriving DecidableEq, Repr

/-- What the SDK answers to a transfer, with the bytes received by one. -/
structure Answer where
  ok : Bool
  data : List UInt8
deriving DecidableEq, Repr

/-- The object, the place of the thread, and the bus. -/
structure World where
  wire : TwoWire := {}
  place : Place := .top
  bus : Bus := {}
deriving DecidableEq, Repr

/-- Behind a part of the loop that has handled nothing. -/
def onward (second : Bool) (other : Place) : Place :=
  if second then .bottom false else other

namespace World

/-- What follows the wait behind a reception. -/
def deliver (w : World) (length : Nat) : World :=
  let t := { w.wire with rx_length := length, rx_index := 0 }
  if 0 < length ∧ t.on_receive then
    { wire := t
      place := .inReceive
      bus := { w.bus with calls := w.bus.calls ++ [(length, t.reads)] } }
  else { w with wire := t, place := .bottom true }

/-- The wait behind a reception is over. -/
def endReceived (w : World) : World :=
  match w.bus.queue with
  | m :: rest =>
    let w := { w with bus := { w.bus with queue := rest } }
    if m.work_mode = .slaveRead ∧ m.data_len ≤ bufferSize then
      { w with bus := w.bus.take m }.deliver m.data_len
    else w.deliver 0
  | [] => w.deliver 0

/-- The wait behind an answer is over. -/
def endAnswered (w : World) (second : Bool) : World :=
  let t := { w.wire with tx_buffer := [], request_pending := false }
  match w.bus.queue with
  | m :: rest =>
    let bus := { w.bus with queue := rest }
    if m.work_mode = .slaveWrite then { wire := t, place := .bottom true, bus := bus.take m }
    else { wire := t, place := onward second (.receive true), bus }
  | [] => { w with wire := t, place := onward second (.receive true) }

/-- One move of the slave thread. -/
def service (w : World) (a : Answer) : World :=
  let t := w.wire
  match w.place with
  | .top =>
    if !t.slave_thread_running then { w with place := .ended }
    else if t.initialized && t.slave_mode then
      { w with place := if t.next_slave_event_write then .request false else .receive false }
    else w
  | .request second =>
    if t.on_request then
      if t.request_pending then { w with place := .answering second }
      else { w with wire := { t with tx_buffer := [] }, place := .inRequest second }
    else { w with place := onward second (.receive true) }
  | .inRequest second =>
    if 0 < t.tx_buffer.length then
      { w with wire := { t with request_pending := true }, place := .answering second }
    else { w with place := onward second (.receive true) }
  | .answering second =>
    -- the transfer's message is queued from here on
    if a.ok then
      { w with bus := w.bus.finish ⟨.slaveWrite, t.tx_buffer⟩, place := .answered second }
    else
      { w with
        wire := { t with tx_buffer := [], request_pending := false }
        place := onward second (.receive true) }
  | .answered second => w.endAnswered second
  | .receive second =>
    if t.on_receive then
      { w with wire := { t with rx_length := 0 }, place := .receiving second }
    else { w with place := onward second (.request true) }
  | .receiving second =>
    -- a new reception overwrites the buffer's first bytes
    if a.ok then
      { wire := { t with rx_buffer := a.data ++ t.rx_buffer.drop a.data.length }
        place := .received
        bus := w.bus.finish ⟨.slaveRead, a.data⟩ }
    else { w with place := onward second (.request true) }
  | .received => w.endReceived
  | .inReceive => { w with place := .bottom true }
  | .bottom handled =>
    { w with
      wire := if handled then { t with next_slave_event_write := !t.next_slave_event_write } else t
      place := .top }
  | .ended => w

end World

/-- What happens next: a move of the loop, a message posted, a call of the sketch or
of its callbacks, or a flag set elsewhere. -/
inductive Event where
  | slave (a : Answer)
  | post
  | beginTransmission (address : Nat)
  | write (data : UInt8)
  | read
  | flags (slave_thread_running initialized slave_mode on_receive on_request : Bool)
deriving DecidableEq, Repr

/-- One move of the thread, of the SDK or of the sketch. -/
def step (w : World) : Event → World
  | .slave a => w.service a
  | .post => { w with bus := w.bus.post }
  | .beginTransmission address => { w with wire := w.wire.beginTransmission address }
  | .write data => { w with wire := (w.wire.write data).1 }
  | .read => { w with wire := w.wire.read.1 }
  | .flags slave_thread_running initialized slave_mode on_receive on_request =>
    { w with
      wire := { w.wire with
        slave_thread_running := slave_thread_running, initialized := initialized
        slave_mode := slave_mode, on_receive := on_receive, on_request := on_request } }

/-- The thread is created: the loop is at its top and the queue is new. -/
def start (t : TwoWire) : World :=
  { wire := t }

/-! ### The law -/

/-- The kind of transfer whose message the loop waits for. -/
def Place.waits : Place → Option WorkMode
  | .answered _ => some .slaveWrite
  | .received => some .slaveRead
  | _ => none

/-- The transfers that the loop is done with. -/
def World.settled (w : World) : List Transfer :=
  match w.place.waits with
  | none => w.bus.transfers
  | some _ => w.bus.transfers.dropLast

/-- What the callback has to be called with for these transfers. -/
def receptions (ts : List Transfer) : List (Nat × List UInt8) :=
  (ts.filter (·.mode = .slaveRead)).map fun t => (t.data.length, t.data)

/-- One call for each transfer received, with its length and bytes, and no message
taken for another transfer. -/
structure Paired (w : World) : Prop where
  calls : w.bus.calls = receptions w.settled
  outcomes : ∀ o ∈ w.bus.outcomes, o.1 = o.2

/-- The law in the state behind an event. -/
def StaysPaired (w : World) (e : Event) : Prop :=
  Paired (step w e)

/-- As the wait behind a reception ends, its message has come and is the only one
left, and there is something to be told to somebody. As the wait behind an answer
ends, its message has come and is the only one left, or there is none in the queue. -/
def InTime (w : World) : Event → Prop
  | .slave _ =>
    match w.place with
    | .received =>
      (w.bus.queue.length = 1 ∧ w.bus.inFlight = []) ∧ w.wire.on_receive = true ∧
        ∀ t ∈ w.bus.transfers.getLast?, 0 < t.data.length ∧ t.data.length ≤ bufferSize
    | .answered _ => w.bus.queue = [] ∨ (w.bus.queue.length = 1 ∧ w.bus.inFlight = [])
    | _ => True
  | _ => True

/-! ### What is left over -/

/-- A message that no wait behind a transfer before this one has found. Those that
receptions leave behind have broken the law already. -/
def Stale (number : Nat) (m : Message) : Prop :=
  m.transfer < number ∧ m.work_mode = .slaveWrite

/-- The loop waits for the message of the last transfer, which is behind all stale
ones. -/
def Waiting (w : World) (mode : WorkMode) : Prop :=
  ∃ (ts : List Transfer) (t : Transfer) (front : List Message),
    w.bus.transfers = ts ++ [t] ∧ t.mode = mode ∧
      w.bus.pending = front ++ [messageOf ts.length t] ∧ (∀ m ∈ front, Stale ts.length m) ∧
        (mode = .slaveRead → ∃ rest, w.wire.rx_buffer = t.data ++ rest)

/-- The invariant, by what the thread waits for. -/
structure Sound (w : World) : Prop where
  idle : w.place.waits = none → ∀ m ∈ w.bus.pending, Stale w.bus.transfers.length m
  waiting : ∀ mode, w.place.waits = some mode → Waiting w mode

/-! ### Events that change nothing -/

/-- Nothing of the bus has changed, nor what the loop waits for. -/
structure Same (w w' : World) : Prop where
  pending : w'.bus.pending = w.bus.pending
  transfers : w'.bus.transfers = w.bus.transfers
  calls : w'.bus.calls = w.bus.calls
  outcomes : w'.bus.outcomes = w.bus.outcomes
  waits : w'.place.waits = w.place.waits
  buffer : w.place.waits ≠ none → w'.wire.rx_buffer = w.wire.rx_buffer

theorem Same.paired {w w' : World} (h : Same w w') (hpaired : Paired w) : Paired w' := by
  refine ⟨?_, ?_⟩
  · rw [h.calls, hpaired.calls, World.settled, World.settled, h.waits, h.transfers]
  · rw [h.outcomes]
    exact hpaired.outcomes

theorem Same.sound {w w' : World} (h : Same w w') (hsound : Sound w) : Sound w' := by
  refine ⟨fun hidle => ?_, fun mode hmode => ?_⟩
  · rw [h.pending, h.transfers]
    rw [h.waits] at hidle
    exact hsound.idle hidle
  · rw [h.waits] at hmode
    rcases hsound.waiting mode hmode with
      ⟨ts, t, front, htransfers, hwaits, hpending, hstale, hbuffer⟩
    refine ⟨ts, t, front, h.transfers.trans htransfers, hwaits, h.pending.trans hpending, hstale,
      ?_⟩
    rw [h.buffer (by simp [hmode])]
    exact hbuffer

/-- The bus is left alone between two places where the loop waits for nothing. -/
theorem same_of_bus (w w' : World) (hbus : w'.bus = w.bus) (hwaits : w.place.waits = none)
    (hwaits' : w'.place.waits = none) : Same w w' :=
  ⟨by rw [hbus], by rw [hbus], by rw [hbus], by rw [hbus], by rw [hwaits, hwaits'],
    fun hne => absurd hwaits hne⟩

/-- The sketch leaves alone the bus, the place and what was received. -/
theorem same_of_wire (w : World) (t : TwoWire) (h : t.rx_buffer = w.wire.rx_buffer) :
    Same w { w with wire := t } :=
  ⟨rfl, rfl, rfl, rfl, rfl, fun _ => h⟩

theorem same_post (w : World) : Same w { w with bus := w.bus.post } := by
  have hpost : w.bus.post.pending = w.bus.pending ∧ w.bus.post.transfers = w.bus.transfers ∧
      w.bus.post.calls = w.bus.calls ∧ w.bus.post.outcomes = w.bus.outcomes := by
    unfold Bus.post
    split
    next m rest hflight =>
      split
      · simp [Bus.pending, hflight]
      · simp
    next => simp
  exact ⟨hpost.1, hpost.2.1, hpost.2.2.1, hpost.2.2.2, rfl, fun _ => rfl⟩

theorem onward_waits (second : Bool) (other : Place) (h : other.waits = none) :
    (onward second other).waits = none := by
  cases second with
  | false => exact h
  | true => rfl

/-! ### A transfer finishes -/

theorem receptions_append (ts : List Transfer) (t : Transfer) :
    receptions (ts ++ [t]) =
      receptions ts ++ if t.mode = .slaveRead then [(t.data.length, t.data)] else [] := by
  unfold receptions
  rw [List.filter_append, List.map_append]
  by_cases hmode : t.mode = .slaveRead
  · simp [hmode]
  · simp [hmode]

/-- The loop begins to wait, behind the stale messages. -/
theorem finish_sound (w w' : World) (t : Transfer) (hbus : w'.bus = w.bus.finish t)
    (hidle : w.place.waits = none) (hwaits : w'.place.waits = some t.mode)
    (hbuffer : t.mode = .slaveRead → ∃ rest, w'.wire.rx_buffer = t.data ++ rest)
    (hsound : Sound w) (hpaired : Paired w) : Sound w' ∧ Paired w' := by
  refine ⟨⟨fun hno => ?_, fun mode hmode => ?_⟩, ⟨?_, ?_⟩⟩
  · rw [hwaits] at hno
    exact absurd hno (by simp)
  -- the message of the transfer that ends is the last one pending
  · rw [hwaits, Option.some.injEq] at hmode
    subst hmode
    refine ⟨w.bus.transfers, t, w.bus.pending, by rw [hbus]; rfl, rfl, ?_, hsound.idle hidle,
      hbuffer⟩
    rw [hbus]
    simp only [Bus.pending, Bus.finish, List.append_assoc]
  · have hcalls := hpaired.calls
    rw [World.settled, hidle] at hcalls
    rw [World.settled, hwaits, hbus]
    simp only [Bus.finish, List.dropLast_concat]
    exact hcalls
  · rw [hbus]
    exact hpaired.outcomes

/-! ### A wait ends -/

/-- A reception nobody was told of. -/
theorem not_paired_of_uncalled (w w' : World) (t : Transfer) (hpaired : Paired w)
    (hmode : t.mode = .slaveRead) (hsettled : w'.settled = w.settled ++ [t])
    (hcalls : w'.bus.calls = w.bus.calls) : ¬Paired w' := by
  intro h
  have hall := h.calls
  rw [hcalls, hsettled, receptions_append, if_pos hmode, hpaired.calls] at hall
  have hlength := congrArg List.length hall
  simp at hlength

theorem deliver_waits (w : World) (length : Nat) : (w.deliver length).place.waits = none := by
  unfold World.deliver
  simp only
  split
  · rfl
  · rfl

theorem deliver_called (w : World) (length : Nat) (h : 0 < length ∧ w.wire.on_receive = true) :
    (w.deliver length).bus = { w.bus with
      calls := w.bus.calls ++
        [(length, { w.wire with rx_length := length, rx_index := 0 : TwoWire }.reads)] } := by
  unfold World.deliver
  simp only [if_pos h]

theorem deliver_uncalled (w : World) (length : Nat) (h : ¬(0 < length ∧ w.wire.on_receive = true)) :
    (w.deliver length).bus = w.bus := by
  unfold World.deliver
  simp only [if_neg h]

/-- What the loop is done with once the last wait is over. -/
theorem settled_of_idle (w w' : World) (ts : List Transfer) (t : Transfer) (mode : WorkMode)
    (htransfers : w.bus.transfers = ts ++ [t]) (hmode : w.place.waits = some mode)
    (hidle : w'.place.waits = none) (hsame : w'.bus.transfers = w.bus.transfers) :
    w.settled = ts ∧ w'.settled = ts ++ [t] := by
  simp only [World.settled, hmode, hidle, hsame, htransfers, List.dropLast_concat, true_and]

/-- The message found is the one of this transfer exactly if it is the only one. -/
theorem front_cases (rest inFlight front : List Message) (m own : Message)
    (h : (m :: rest) ++ inFlight = front ++ [own]) :
    (front = [] ∧ m = own ∧ rest = [] ∧ inFlight = []) ∨
      (m ∈ front ∧ ¬((m :: rest).length = 1 ∧ inFlight = [])) := by
  cases front with
  | nil =>
      simp only [List.cons_append, List.nil_append, List.cons.injEq, List.append_eq_nil_iff] at h
      exact Or.inl ⟨rfl, h.1, h.2.1, h.2.2⟩
  | cons f front =>
      refine Or.inr ⟨?_, fun honly => ?_⟩
      · simp only [List.cons_append, List.cons.injEq] at h
        rw [h.1]
        exact List.mem_cons_self
      · have hlength := congrArg List.length h
        simp only [List.length_append, List.length_cons, List.length_nil, honly.2] at hlength honly
        omega

theorem endReceived_accepts (w : World) (m : Message) (rest : List Message)
    (hqueue : w.bus.queue = m :: rest)
    (hm : m.work_mode = .slaveRead ∧ m.data_len ≤ bufferSize) :
    w.endReceived =
      World.deliver { w with bus := { w.bus with queue := rest }.take m } m.data_len := by
  unfold World.endReceived
  rw [hqueue]
  simp only [if_pos hm]

/-- A message of the other kind, or none: nobody is called. -/
theorem endReceived_drops (w : World)
    (h : ∀ m ∈ w.bus.queue.head?, ¬(m.work_mode = .slaveRead ∧ m.data_len ≤ bufferSize)) :
    w.endReceived.place.waits = none ∧ w.endReceived.bus.transfers = w.bus.transfers ∧
      w.endReceived.bus.calls = w.bus.calls := by
  unfold World.endReceived
  cases hqueue : w.bus.queue with
  | nil =>
      have hbus := deliver_uncalled w 0 (by simp)
      exact ⟨deliver_waits w 0, by rw [hbus], by rw [hbus]⟩
  -- a message of the other kind or of a bad length is dropped
  | cons m rest =>
      have hm := h m (by simp [hqueue])
      let u : World := { w with bus := { w.bus with queue := rest } }
      have hbus := deliver_uncalled u 0 (by simp)
      have hidle := deliver_waits u 0
      simp only [if_neg hm]
      refine ⟨hidle, ?_, ?_⟩
      · exact (congrArg Bus.transfers hbus).trans rfl
      · exact (congrArg Bus.calls hbus).trans rfl

/-- The message has come alone and says something that somebody wants to know. -/
theorem received_well (w : World) (ts : List Transfer) (t : Transfer) (behind : List UInt8)
    (hplace : w.place = .received) (hpaired : Paired w) (htransfers : w.bus.transfers = ts ++ [t])
    (hmode : t.mode = .slaveRead) (hbuffer : w.wire.rx_buffer = t.data ++ behind)
    (hqueue : w.bus.queue = [messageOf ts.length t]) (hflight : w.bus.inFlight = [])
    (hreceive : w.wire.on_receive = true)
    (hlength : 0 < t.data.length ∧ t.data.length ≤ bufferSize) :
    Paired w.endReceived ∧ Sound w.endReceived := by
  let u : World :=
    { w with bus := { w.bus with queue := [] }.take (messageOf ts.length t) }
  have haccepts : w.endReceived = u.deliver t.data.length :=
    endReceived_accepts w _ [] hqueue ⟨hmode, hlength.2⟩
  have hbus := deliver_called u t.data.length ⟨hlength.1, hreceive⟩
  have hidle := deliver_waits u t.data.length
  have hsettled := settled_of_idle w (u.deliver t.data.length) ts t .slaveRead htransfers
    (by rw [hplace]; rfl) hidle (by rw [hbus]; rfl)
  -- The callback reads all that was received, and no byte more.
  have hreads : { w.wire with
      rx_length := t.data.length, rx_index := 0 : TwoWire }.reads = t.data := by
    have hroom : t.data.length ≤ w.wire.rx_buffer.length := by
      rw [hbuffer, List.length_append]
      omega
    rw [TwoWire.reads_eq_take _ rfl hroom]
    change w.wire.rx_buffer.take t.data.length = t.data
    rw [hbuffer, List.take_left]
  rw [haccepts]
  refine ⟨⟨?_, ?_⟩, ⟨fun _ => ?_, fun mode hno => ?_⟩⟩
  · have hcalls : (u.deliver t.data.length).bus.calls =
        w.bus.calls ++ [(t.data.length, t.data)] := by
      rw [hbus]
      exact congrArg (fun bytes => w.bus.calls ++ [(t.data.length, bytes)]) hreads
    rw [hcalls, hsettled.2, receptions_append, if_pos hmode, hpaired.calls, hsettled.1]
  · rw [hbus]
    intro o ho
    rcases List.mem_append.1 ho with ho | ho
    · exact hpaired.outcomes o ho
    · rw [List.mem_singleton.1 ho]
      simp [htransfers, messageOf]
  · rw [hbus]
    simp [u, Bus.take, Bus.pending, hflight]
  · exact absurd (hno.symm.trans hidle) (by simp)

/-- Otherwise nobody is told of this reception. -/
theorem received_ill (w : World) (ts : List Transfer) (t : Transfer)
    (hplace : w.place = .received) (hpaired : Paired w) (htransfers : w.bus.transfers = ts ++ [t])
    (hmode : t.mode = .slaveRead)
    (h : (∀ m ∈ w.bus.queue.head?, m.work_mode = .slaveRead → m = messageOf ts.length t) ∧
      ∀ m ∈ w.bus.queue.head?, m = messageOf ts.length t →
        ¬(w.wire.on_receive = true ∧ 0 < t.data.length ∧ t.data.length ≤ bufferSize)) :
    ¬Paired w.endReceived := by
  have hwaits : w.place.waits = some .slaveRead := by rw [hplace]; rfl
  have huncalled : w.endReceived.place.waits = none ∧
      w.endReceived.bus.transfers = w.bus.transfers ∧
        w.endReceived.bus.calls = w.bus.calls := by
    -- A message that is taken is the own one, of which nobody wants to know.
    by_cases haccept : ∃ m ∈ w.bus.queue.head?,
        m.work_mode = .slaveRead ∧ m.data_len ≤ bufferSize
    · rcases haccept with ⟨m, hm, hfits⟩
      have hown := h.1 m hm hfits.1
      have huntold := h.2 m hm hown
      rcases List.head?_eq_some_iff.1 hm with ⟨rest, hqueue⟩
      have hlen : m.data_len = t.data.length := by rw [hown]; rfl
      have hno : ¬(0 < m.data_len ∧ w.wire.on_receive = true) := by
        intro htold
        rw [hlen] at htold hfits
        exact huntold ⟨htold.2, htold.1, hfits.2⟩
      let u : World := { w with bus := { w.bus with queue := rest }.take m }
      have hbus : (u.deliver m.data_len).bus = u.bus := deliver_uncalled u _ hno
      rw [endReceived_accepts w m rest hqueue hfits]
      refine ⟨deliver_waits u _, ?_, ?_⟩
      · exact (congrArg Bus.transfers hbus).trans rfl
      · exact (congrArg Bus.calls hbus).trans rfl
    · exact endReceived_drops w fun m hm hfits => haccept ⟨m, hm, hfits⟩
  -- The loop is done with the reception, and nobody was told of it.
  have hsettled := settled_of_idle w w.endReceived ts t _ htransfers hwaits huncalled.1
    huncalled.2.1
  refine not_paired_of_uncalled w _ t hpaired hmode ?_ huncalled.2.2
  rw [hsettled.1, hsettled.2]

/-- The wait behind a reception ends well exactly with its own message, which has
something to tell. -/
theorem received_iff (w : World) (a : Answer) (hplace : w.place = .received) (hsound : Sound w)
    (hpaired : Paired w) :
    (Paired w.endReceived ↔ InTime w (.slave a)) ∧ (InTime w (.slave a) → Sound w.endReceived) := by
  have hwaits : w.place.waits = some .slaveRead := by rw [hplace]; rfl
  rcases hsound.waiting _ hwaits with ⟨ts, t, front, htransfers, hmode, hpending, hstale, hbuffer⟩
  rcases hbuffer rfl with ⟨behind, hbuffer⟩
  have hlast : w.bus.transfers.getLast? = some t := by rw [htransfers, List.getLast?_concat]
  -- in time are exactly the messages of this reception alone
  have hin : InTime w (.slave a) ↔ (w.bus.queue.length = 1 ∧ w.bus.inFlight = []) ∧
      w.wire.on_receive = true ∧ 0 < t.data.length ∧ t.data.length ≤ bufferSize := by
    simp only [InTime, hplace, hlast, Option.mem_some_iff, forall_eq']
  rw [hin]
  have hill := received_ill w ts t hplace hpaired htransfers hmode
  cases hqueue : w.bus.queue with
  | nil =>
      have hno := hill (by simp [hqueue])
      simp [hno]
  | cons m rest =>
      rw [Bus.pending, hqueue] at hpending
      rw [hqueue] at hill
      simp only [List.head?_cons, Option.mem_some_iff, forall_eq'] at hill
      rcases front_cases _ _ _ _ _ hpending with ⟨-, hm, hrest, hflight⟩ | ⟨hm, honly⟩
      -- the message is this reception's own
      · rw [hm, hrest] at hqueue
        by_cases htold : w.wire.on_receive = true ∧ 0 < t.data.length ∧ t.data.length ≤ bufferSize
        · have hwell := received_well w ts t behind hplace hpaired htransfers hmode hbuffer hqueue
            hflight htold.1 htold.2
          exact ⟨iff_of_true hwell.1 ⟨⟨by rw [hrest, List.length_singleton], hflight⟩, htold⟩,
            fun _ => hwell.2⟩
        · have hno := hill ⟨fun _ => hm, fun _ => htold⟩
          exact ⟨iff_of_false hno fun h => htold h.2, fun h => absurd h.2 htold⟩
      · -- a stale message of the other kind is dropped, and so is the reception
        have hwrite := (hstale m hm).2
        have hold := (hstale m hm).1
        have hno := hill ⟨fun hread => absurd (hwrite.symm.trans hread) (by simp), fun hown => by
          rw [hown] at hold
          exact absurd hold (Nat.lt_irrefl _)⟩
        exact ⟨iff_of_false hno fun h => honly h.1, fun h => absurd h.1 honly⟩

/-- The wait behind an answer ends badly exactly with a stale message. -/
theorem answered_iff (w : World) (a : Answer) (second : Bool) (hplace : w.place = .answered second)
    (hsound : Sound w) (hpaired : Paired w) :
    (Paired (w.endAnswered second) ↔ InTime w (.slave a)) ∧
      (InTime w (.slave a) → Sound (w.endAnswered second)) := by
  have hwaits : w.place.waits = some .slaveWrite := by rw [hplace]; rfl
  rcases hsound.waiting _ hwaits with ⟨ts, t, front, htransfers, hmode, hpending, hstale, -⟩
  have hin : InTime w (.slave a) ↔
      w.bus.queue = [] ∨ (w.bus.queue.length = 1 ∧ w.bus.inFlight = []) := by
    simp only [InTime, hplace]
  have honward := onward_waits second (.receive true) rfl
  -- an answer adds nothing to what the callback has to be told
  have hcalls : w.bus.calls = receptions (ts ++ [t]) := by
    have hsettled : w.settled = ts := by
      simp only [World.settled, hwaits, htransfers, List.dropLast_concat]
    rw [receptions_append, if_neg (by rw [hmode]; simp), List.append_nil, ← hsettled]
    exact hpaired.calls
  rw [hin]
  unfold World.endAnswered
  cases hqueue : w.bus.queue with
  | nil =>
      -- the answer's message is still under way, and becomes a stale one
      rw [Bus.pending, hqueue, List.nil_append] at hpending
      refine ⟨iff_of_true ⟨?_, hpaired.outcomes⟩ (Or.inl rfl), fun _ => ⟨fun _ m hm => ?_, ?_⟩⟩
      · simp only [World.settled, honward, htransfers]
        exact hcalls
      · simp only [Bus.pending, hqueue, List.nil_append, hpending, htransfers] at hm ⊢
        rw [List.length_append, List.length_singleton]
        rcases List.mem_append.1 hm with hm | hm
        · exact ⟨Nat.lt_succ_of_lt (hstale m hm).1, (hstale m hm).2⟩
        · rw [List.mem_singleton.1 hm]
          exact ⟨Nat.lt_succ_self _, hmode⟩
      · intro mode hno
        exact absurd (hno.symm.trans honward) (by simp)
  | cons m rest =>
      rw [Bus.pending, hqueue] at hpending
      rcases front_cases _ _ _ _ _ hpending with ⟨-, hm, hrest, hflight⟩ | ⟨hm, honly⟩
      -- the message is this answer's own
      · have hwrite : m.work_mode = .slaveWrite := by rw [hm]; exact hmode
        simp only [if_pos hwrite]
        refine ⟨iff_of_true ⟨?_, ?_⟩ (Or.inr ⟨by rw [hrest, List.length_singleton], hflight⟩),
          fun _ => ⟨fun _ q hq => ?_, fun mode hno => absurd hno (by simp [Place.waits])⟩⟩
        · simp only [World.settled, Place.waits, Bus.take, htransfers]
          exact hcalls
        · intro o ho
          rcases List.mem_append.1 ho with ho | ho
          · exact hpaired.outcomes o ho
          · rw [List.mem_singleton.1 ho, hm]
            simp [htransfers, messageOf]
        · simp [Bus.take, Bus.pending, hrest, hflight] at hq
      -- a stale answer's message is taken for this one
      · have hold := hstale m hm
        simp only [if_pos hold.2]
        have hbad : ¬(m :: rest = [] ∨ ((m :: rest).length = 1 ∧ w.bus.inFlight = [])) := by
          rintro (hnil | hone)
          · exact absurd hnil (by simp)
          · exact honly hone
        refine ⟨iff_of_false (fun h => ?_) hbad, fun h => absurd h hbad⟩
        have hsame := h.outcomes (w.bus.transfers.length - 1, m.transfer)
          (List.mem_append_right _ (List.mem_singleton_self _))
        have hold' := hold.1
        simp only [htransfers, List.length_append, List.length_singleton] at hsame
        omega

/-! ### The law along a run -/

/-- A move of the loop that begins and ends no wait. -/
theorem service_same (w : World) (a : Answer) (hwaits : w.place.waits = none)
    (hanswering : ∀ second, w.place = .answering second → a.ok = false)
    (hreceiving : ∀ second, w.place = .receiving second → a.ok = false) : Same w (w.service a) := by
  have hrequest (second : Bool) : (onward second (.request true)).waits = none :=
    onward_waits second _ rfl
  have hreceive (second : Bool) : (onward second (.receive true)).waits = none :=
    onward_waits second _ rfl
  -- outside the two calls that wait nothing on the bus is changed
  cases hplace : w.place with
  | answered second =>
      rw [hplace] at hwaits
      exact absurd hwaits (by simp [Place.waits])
  | received =>
      rw [hplace] at hwaits
      exact absurd hwaits (by simp [Place.waits])
  | answering second =>
      refine same_of_bus w _ ?_ hwaits ?_
      · simp [World.service, hplace, hanswering second hplace]
      · simp [World.service, hplace, hanswering second hplace, hreceive]
  | receiving second =>
      refine same_of_bus w _ ?_ hwaits ?_
      · simp [World.service, hplace, hreceiving second hplace]
      · simp [World.service, hplace, hreceiving second hplace, hrequest]
  | top =>
      refine same_of_bus w _ ?_ hwaits ?_
      · simp only [World.service, hplace]
        split
        · rfl
        · split <;> rfl
      · simp only [World.service, hplace]
        split
        · rfl
        · split
          · split <;> rfl
          · exact hwaits
  | request second =>
      refine same_of_bus w _ ?_ hwaits ?_
      · simp only [World.service, hplace]
        split
        · split <;> rfl
        · rfl
      · simp only [World.service, hplace]
        split
        · split <;> rfl
        · exact hreceive second
  | inRequest second =>
      refine same_of_bus w _ ?_ hwaits ?_
      · simp only [World.service, hplace]
        split <;> rfl
      · simp only [World.service, hplace]
        split
        · rfl
        · exact hreceive second
  | receive second =>
      refine same_of_bus w _ ?_ hwaits ?_
      · simp only [World.service, hplace]
        split <;> rfl
      · simp only [World.service, hplace]
        split
        · rfl
        · exact hrequest second
  | inReceive =>
      refine same_of_bus w _ ?_ hwaits ?_
      · simp only [World.service, hplace]
      · simp only [World.service, hplace, Place.waits]
  | bottom handled =>
      refine same_of_bus w _ ?_ hwaits ?_
      · simp only [World.service, hplace]
      · simp only [World.service, hplace, Place.waits]
  | ended =>
      refine same_of_bus w _ ?_ hwaits ?_
      · simp only [World.service, hplace]
      · simp only [World.service, hplace, Place.waits]

/-- A transfer that finishes is waited for, and every other move between waits
changes nothing. -/
theorem idle_service (w : World) (a : Answer) (hwaits : w.place.waits = none) (hsound : Sound w)
    (hpaired : Paired w) : Sound (w.service a) ∧ Paired (w.service a) := by
  by_cases hstarts : a.ok = true ∧
      ((∃ second, w.place = .answering second) ∨ ∃ second, w.place = .receiving second)
  -- a transfer ends, and its message goes on its way
  · rcases hstarts with ⟨hok, ⟨second, hplace⟩ | ⟨second, hplace⟩⟩
    · refine finish_sound w _ ⟨.slaveWrite, w.wire.tx_buffer⟩ ?_ hwaits ?_ (by simp) hsound hpaired
      · simp only [World.service, hplace, hok, if_true]
      · simp only [World.service, hplace, hok, if_true, Place.waits]
    · refine finish_sound w _ ⟨.slaveRead, a.data⟩ ?_ hwaits ?_ (fun _ => ?_) hsound hpaired
      · simp only [World.service, hplace, hok, if_true]
      · simp only [World.service, hplace, hok, if_true, Place.waits]
      · simp only [World.service, hplace, hok, if_true]
        exact ⟨_, rfl⟩
  · have hsame := service_same w a hwaits
      (fun second hplace => by
        by_contra hok
        exact hstarts ⟨by simpa using hok, Or.inl ⟨second, hplace⟩⟩)
      (fun second hplace => by
        by_contra hok
        exact hstarts ⟨by simpa using hok, Or.inr ⟨second, hplace⟩⟩)
    exact ⟨hsame.sound hsound, hsame.paired hpaired⟩

/-- One event: the law survives exactly in time, and what is left over stays stale. -/
theorem step_iff (w : World) (e : Event) (hsound : Sound w) (hpaired : Paired w) :
    (StaysPaired w e ↔ InTime w e) ∧ (InTime w e → Sound (step w e)) := by
  have hsame (h : Same w (step w e)) (hin : InTime w e) :
      (StaysPaired w e ↔ InTime w e) ∧ (InTime w e → Sound (step w e)) :=
    ⟨iff_of_true (h.paired hpaired) hin, fun _ => h.sound hsound⟩
  -- only a step of the slave that waits for a message can go wrong
  cases e with
  | slave a =>
      cases hwaits : w.place.waits with
      | none =>
          have hidle := idle_service w a hwaits hsound hpaired
          have hin : InTime w (.slave a) := by
            unfold InTime
            cases hplace : w.place with
            | answered second => exact absurd hwaits (by simp [hplace, Place.waits])
            | received => exact absurd hwaits (by simp [hplace, Place.waits])
            | _ => exact True.intro
          exact ⟨iff_of_true hidle.2 hin, fun _ => hidle.1⟩
      | some mode =>
          cases hplace : w.place with
          | answered second =>
              have hstep : step w (.slave a) = w.endAnswered second := by
                simp only [step, World.service, hplace]
              rw [StaysPaired, hstep]
              exact answered_iff w a second hplace hsound hpaired
          | received =>
              have hstep : step w (.slave a) = w.endReceived := by
                simp only [step, World.service, hplace]
              rw [StaysPaired, hstep]
              exact received_iff w a hplace hsound hpaired
          | _ => exact absurd hwaits (by simp [hplace, Place.waits])
  | post => exact hsame (same_post w) True.intro
  | beginTransmission address => exact hsame (same_of_wire w _ rfl) True.intro
  | write data =>
      refine hsame (same_of_wire w _ ?_) True.intro
      unfold TwoWire.write
      split <;> rfl
  | read =>
      refine hsame (same_of_wire w _ ?_) True.intro
      unfold TwoWire.read
      split <;> rfl
  | flags _ _ _ _ _ => exact hsame (same_of_wire w _ rfl) True.intro

theorem start_sound (t : TwoWire) : Sound (start t) ∧ Paired (start t) := by
  refine ⟨⟨fun _ m hm => ?_, fun mode hno => ?_⟩, ⟨rfl, fun o ho => ?_⟩⟩
  · exact absurd hm (by simp [start, Bus.pending])
  · exact absurd hno (by simp [start, Place.waits])
  · exact absurd ho (by simp [start])

/-- Along every run of the loop, with any results of the transfers and any delays of
the messages, every transfer received is told of once, with its length and bytes, and
no message is taken for another transfer, exactly as long as every wait ends in
time. -/
theorem paired_iff (t : TwoWire) (es : List Event) :
    EventRun.Always step StaysPaired (start t) es ↔ EventRun.Always step InTime (start t) es := by
  refine EventRun.always_iff_of_good (I := fun w => Sound w ∧ Paired w) ?_ ?_ (start_sound t) es
  · intro w e ⟨hsound, hpaired⟩ hstays
    have hstep := step_iff w e hsound hpaired
    exact ⟨hstep.2 (hstep.1.1 hstays), hstays⟩
  · intro w e ⟨hsound, hpaired⟩
    exact (step_iff w e hsound hpaired).1

/-- A sketch that only receives. -/
def listening : TwoWire where
  slave_thread_running := true
  initialized := true
  slave_mode := true
  on_receive := true

/-- Two bytes come and their message is late, and then three. -/
def lateMessage : List Event :=
  let silent : Event := .slave ⟨true, []⟩
  [silent, silent, .slave ⟨true, [7, 8]⟩, silent, .post, silent, silent, silent, silent,
    .slave ⟨true, [1, 2, 3]⟩, silent]

/-- Nobody is told of the first reception, and the callback of the second is told that
two bytes have come. -/
theorem late_message_shifts :
    ((EventRun.run step (start listening) lateMessage).bus.transfers =
        [⟨.slaveRead, [7, 8]⟩, ⟨.slaveRead, [1, 2, 3]⟩] ∧
      (EventRun.run step (start listening) lateMessage).bus.calls = [(2, [1, 2])]) ∧
        ¬EventRun.Always step StaysPaired (start listening) lateMessage := by
  refine ⟨⟨by decide, by decide⟩, fun h => ?_⟩
  exact absurd h.2.2.2.1.calls (by decide)

end Pairing

end Wire

end ArduinoBeken
