import ArduinoBeken.Library.Run
import ArduinoBeken.Wire.TwoWire

/-!
# The Role of the I2C Object

The calls that start and stop the bus, with what the SDK answers to each. Beside
the object stand the things outside it: the role the bus is initialised in, and how
many slave threads and event queues there are. They follow the SDK calls and not
the flags of the object. What the sketch last asked for with a `begin` is kept too.

Only `begin(address)` sets `m_slave_mode`, so a `begin()` of a slave starts a slave
again. `beginTransmission` stores its target where the address of the slave is
kept, and whatever initialises the bus next makes it the slave's. And a bus that
is initialised again and fails leaves the thread and the queue, which `end` does
not take down either (`lifecycle_iff`).

## Main definitions

* `Role`, `Sdk`, `World`: The bus and what is there.
* `World.beginPins`, `World.end_`: Starting and stopping.
* `Lawful`, `StaysLawful`: The law.
* `Releases`: What is taken down is gone.
* `Orderly`: No bus comes up in another role than the one asked for.

## Theorems

* `inv_beginPins`, `idle_end_`: Starting without thread and queue, and stopping.
* `inv_step`, `orderly_of_lawful`: One event.
* `lifecycle_iff`: The law along a run.
-/

namespace ArduinoBeken

namespace Wire

namespace Lifecycle

/-- What the bus was asked to be. -/
inductive Role where
  | master
  | slave (address : Nat)
deriving DecidableEq, Repr

/-- Whether the calls of the SDK succeed: `bk_i2c_init`, `rtos_init_queue`,
`rtos_create_thread`, `rtos_thread_join`, `rtos_deinit_queue`, `bk_i2c_deinit`. -/
structure Sdk where
  init : Bool := true
  queue : Bool := true
  thread : Bool := true
  joined : Bool := true
  freed : Bool := true
  stopped : Bool := true
deriving DecidableEq, Repr

/-- The object, the role the bus is initialised in, the threads and queues there
are, and the role the last `begin` asked for. Before the first one it is that of
`begin()`, which the transfers call by themselves. -/
structure World where
  wire : TwoWire := {}
  bus : Option Role := none
  threads : Nat := 0
  queues : Nat := 0
  requested : Role := .master
deriving DecidableEq, Repr

namespace World

/-- `bk_i2c_init` on behalf of `beginMaster` and `beginSlave`. A failed one leaves
the bus in no role. -/
def init (w : World) (role : Role) (a : Sdk) : World :=
  { w with
    wire := { w.wire with initialized := a.init }
    bus := if a.init then some role else none }

/-- `bk_i2c_deinit`. -/
def deinit (w : World) (a : Sdk) : World :=
  { w with
    wire := { w.wire with initialized := false }
    bus := if a.stopped then none else w.bus }

/-- A callback is set, so there is something to serve. -/
def callbacks (w : World) : Bool :=
  w.wire.on_receive || w.wire.on_request

/-- Whether `initSlaveEventQueue` returns true. -/
def queueReady (w : World) (a : Sdk) : Bool :=
  w.wire.queue_init || a.queue

/-- The queue is made if there is none. -/
def initSlaveEventQueue (w : World) (a : Sdk) : World :=
  if w.wire.queue_init then w
  else if a.queue then
    { w with wire := { w.wire with queue_init := true }, queues := w.queues + 1 }
  else w

/-- The thread is created if there is no handle of one. -/
def startThread (w : World) (a : Sdk) : World :=
  if w.wire.slave_thread then w
  else
    { w with
      wire := { w.wire with slave_thread_running := true, slave_thread := a.thread }
      threads := w.threads + a.thread.toNat }

/-- `begin` as the master. -/
def beginMaster (w : World) (frequency : Nat) (a : Sdk) : World :=
  { w with wire := { w.wire with frequency := frequency } }.init .master a

/-- `begin` as a slave. The thread is started only for a callback, and without a queue the bus
is given up. -/
def beginSlave (w : World) (frequency : Nat) (a : Sdk) : World :=
  let w := { w with wire := { w.wire with frequency := frequency } }.init (.slave w.wire.address) a
  if w.wire.initialized && w.callbacks then
    if w.queueReady a then (w.initSlaveEventQueue a).startThread a
    else w.deinit a
  else w

/-- `begin(sda, scl, frequency)`. -/
def beginPins (w : World) (frequency : Nat) (a : Sdk) : World :=
  let w := { w with wire := { w.wire with frequency := frequency } }
  if w.wire.slave_mode then w.beginSlave frequency a else w.beginMaster frequency a

/-- `begin()`. -/
def begin (w : World) (a : Sdk) : World :=
  w.beginPins w.wire.frequency a

/-- The flag goes down, and the thread, if there is one, is waited for. -/
def joinThread (w : World) (a : Sdk) : World :=
  if w.wire.slave_thread_running then
    if w.wire.slave_thread then
      { w with
        wire := { w.wire with slave_thread_running := false, slave_thread := false }
        threads := w.threads - a.joined.toNat }
    else { w with wire := { w.wire with slave_thread_running := false } }
  else w

/-- The queue is freed if there is one. -/
def freeQueue (w : World) (a : Sdk) : World :=
  if w.wire.queue_init then
    { w with wire := { w.wire with queue_init := false }, queues := w.queues - a.freed.toNat }
  else w

/-- `end`: the thread first, then the queue, then the bus. -/
def end_ (w : World) (a : Sdk) : World :=
  if w.wire.initialized then
    let w := (w.joinThread a).freeQueue a
    { w with wire := { w.wire with request_pending := false } }.deinit a
  else w

/-- `begin(address)`, with the answers to its `end` and to its `begin`. -/
def beginAddress (w : World) (address : Nat) (a b : Sdk) : World :=
  let w := { w with wire := { w.wire with address := address, slave_mode := address != 0 } }
  (w.end_ a).beginPins w.wire.frequency b

/-- `setClock`: a bus in use is begun again at the new frequency. -/
def setClock (w : World) (freq : Nat) (a b : Sdk) : World :=
  let w := { w with wire := { w.wire with frequency := freq } }
  if w.wire.initialized then (w.end_ a).begin b else w

/-- A transfer begins the bus if nobody has. -/
def ensureInit (w : World) (a : Sdk) : World :=
  if w.wire.initialized then w else w.begin a

/-- `endTransmission`. What is sent does not matter here. -/
def endTransmission (w : World) (a : Sdk) : World :=
  let w := w.ensureInit a
  if w.wire.initialized then { w with wire := { w.wire with tx_buffer := [] } } else w

/-- What `onReceive` and `onRequest` do behind storing the callback. -/
def serve (w : World) (a : Sdk) : World :=
  if w.wire.initialized && w.wire.slave_mode && w.callbacks then
    if w.queueReady a then (w.initSlaveEventQueue a).startThread a else w
  else w

/-- `onReceive`, which may start the thread. -/
def onReceive (w : World) (callback : Bool) (a : Sdk) : World :=
  { w with wire := { w.wire with on_receive := callback } }.serve a

/-- `onRequest`, which may start the thread. -/
def onRequest (w : World) (callback : Bool) (a : Sdk) : World :=
  { w with wire := { w.wire with on_request := callback } }.serve a

end World

/-- The calls of the sketch, with the answers of the SDK. -/
inductive Event where
  | begin (a : Sdk)
  | beginAddress (address : Nat) (a b : Sdk)
  | beginPins (frequency : Nat) (a : Sdk)
  | setClock (freq : Nat) (a b : Sdk)
  | beginTransmission (address : Nat)
  | endTransmission (a : Sdk)
  | onReceive (callback : Bool) (a : Sdk)
  | onRequest (callback : Bool) (a : Sdk)
  | end_ (a : Sdk)
deriving DecidableEq, Repr

/-- The role that `begin(address)` asks for. -/
def roleOf (address : Nat) : Role :=
  if address = 0 then .master else .slave address

/-- One call, with what the sketch asked for as history. -/
def step (w : World) : Event → World
  | .begin a => { w with requested := .master }.begin a
  | .beginAddress address a b => { w with requested := roleOf address }.beginAddress address a b
  | .beginPins frequency a => { w with requested := .master }.beginPins frequency a
  | .setClock freq a b => w.setClock freq a b
  | .beginTransmission address => { w with wire := w.wire.beginTransmission address }
  | .endTransmission a => w.endTransmission a
  | .onReceive callback a => w.onReceive callback a
  | .onRequest callback a => w.onRequest callback a
  | .end_ a => w.end_ a

/-! ### The law -/

/-- There is at most one thread and one queue, either only while the bus is
initialised for a slave, and the role of the bus is the one asked for. -/
structure Lawful (w : World) : Prop where
  thread : w.threads ≤ 1
  queue : w.queues ≤ 1
  slave : 0 < w.threads ∨ 0 < w.queues → ∃ address, w.bus = some (.slave address)
  role : ∀ role, w.bus = some role → role = w.requested

/-- The law in the state behind an event. -/
def StaysLawful (w : World) (e : Event) : Prop :=
  Lawful (step w e)

/-- A thread or a queue that is taken down is gone. -/
def World.Frees (w : World) (a : Sdk) : Prop :=
  w.wire.initialized = true →
    (w.wire.slave_thread = true → a.joined = true) ∧ (w.wire.queue_init = true → a.freed = true)

/-- A call that gives up a queue frees it. -/
def Releases (w : World) : Event → Prop
  | .beginAddress _ a _ => w.Frees a
  | .setClock _ a _ => w.Frees a
  | .end_ a => w.Frees a
  | _ => True

/-- `beginSlave` leaves the bus up: it has its queue, or needs none, or does not get
the bus down again. -/
def World.ComesUp (w : World) (queue_init : Bool) (a : Sdk) : Prop :=
  a.init = true ∧
    (w.callbacks = true → queue_init = true ∨ a.queue = true ∨ a.stopped = false)

/-- A slave is not begun again as if it were none, unless it fails with nothing left
behind, and where a slave is initialised by itself its address is still the one
asked for. -/
def Orderly (w : World) : Event → Prop
  | .begin a | .beginPins _ a =>
    w.wire.slave_mode = true → w.wire.queue_init = false ∧ ¬w.ComesUp false a
  | .setClock _ _ b =>
    w.wire.initialized = true → w.wire.slave_mode = true → w.ComesUp false b →
      w.requested = .slave w.wire.address
  | .endTransmission a =>
    w.wire.initialized = false → w.wire.slave_mode = true → w.ComesUp false a →
      w.requested = .slave w.wire.address
  | _ => True

/-! ### What holds between the calls -/

/-- No thread and no queue. -/
structure Empty (w : World) : Prop where
  slave_thread : w.wire.slave_thread = false
  queue_init : w.wire.queue_init = false
  threads : w.threads = 0
  queues : w.queues = 0

/-- The handles are what there is, and there is none but on a bus that is up. -/
structure Held (w : World) : Prop where
  threads : w.threads = w.wire.slave_thread.toNat
  queues : w.queues = w.wire.queue_init.toNat
  running : w.wire.slave_thread = true → w.wire.slave_thread_running = true
  served : w.wire.slave_thread = true → w.wire.queue_init = true
  up : w.wire.queue_init = true → w.wire.initialized = true

/-- Besides, only a slave has a queue, a slave that is up is one that was asked for,
and so is whatever role the bus is in. -/
structure Inv (w : World) : Prop where
  held : Held w
  only : w.wire.queue_init = true → w.wire.slave_mode = true
  inForce : w.wire.initialized = true → w.bus = some w.requested
  slave : w.wire.initialized = true → w.wire.slave_mode = true →
    ∃ address, w.requested = .slave address
  mode : w.wire.slave_mode = false → w.requested = .master
  role : ∀ role, w.bus = some role → role = w.requested

theorem lawful_of_inv (w : World) (h : Inv w) : Lawful w := by
  refine ⟨?_, ?_, ?_, h.role⟩
  -- at most one thread and one queue, since each has a flag
  · rw [h.held.threads]
    exact Bool.toNat_le _
  · rw [h.held.queues]
    exact Bool.toNat_le _
  -- a thread is only up behind its queue, and the queue behind a bus in slave mode
  · intro hsome
    have hqueue : w.wire.queue_init = true := by
      rw [h.held.threads, h.held.queues] at hsome
      rcases hsome with hthread | hqueue
      · exact h.held.served (by cases ht : w.wire.slave_thread <;> simp_all)
      · cases hq : w.wire.queue_init <;> simp_all
    have hup := h.held.up hqueue
    rcases h.slave hup (h.only hqueue) with ⟨address, haddress⟩
    exact ⟨address, by rw [h.inForce hup, haddress]⟩

theorem empty_of_held (w : World) (h : Held w) (hqueue : w.wire.queue_init = false) :
    Empty w := by
  have hthread : w.wire.slave_thread = false := by
    cases hthread : w.wire.slave_thread with
    | false => rfl
    | true => exact absurd (hqueue.symm.trans (h.served hthread)) Bool.false_ne_true
  refine ⟨hthread, hqueue, ?_, ?_⟩
  · rw [h.threads, hthread]
    rfl
  · rw [h.queues, hqueue]
    rfl

/-- Without thread and queue only the roles matter. -/
theorem inv_of_empty (w : World) (h : Empty w)
    (hforce : w.wire.initialized = true → w.bus = some w.requested)
    (hslave : w.wire.initialized = true → w.wire.slave_mode = true →
      ∃ address, w.requested = .slave address)
    (hmode : w.wire.slave_mode = false → w.requested = .master)
    (hrole : ∀ role, w.bus = some role → role = w.requested) : Inv w := by
  have hthread : w.wire.slave_thread ≠ true := by
    rw [h.slave_thread]
    exact Bool.false_ne_true
  have hqueue : w.wire.queue_init ≠ true := by
    rw [h.queue_init]
    exact Bool.false_ne_true
  refine ⟨⟨?_, ?_, ?_, ?_, ?_⟩, fun hq => absurd hq hqueue, hforce, hslave, hmode, hrole⟩
  · rw [h.threads, h.slave_thread]
    rfl
  · rw [h.queues, h.queue_init]
    rfl
  · exact fun ht => absurd ht hthread
  · exact fun ht => absurd ht hthread
  · exact fun hq => absurd hq hqueue

/-! ### Starting -/

/-- The bus with the parameters of a slave, before the queue is looked at. -/
def World.asSlave (w : World) (frequency : Nat) (a : Sdk) : World :=
  { w with wire := { w.wire with frequency := frequency } }.init (.slave w.wire.address) a

theorem beginSlave_eq (w : World) (frequency : Nat) (a : Sdk) :
    w.beginSlave frequency a =
      if (a.init && w.callbacks) = true then
        if w.queueReady a = true then ((w.asSlave frequency a).initSlaveEventQueue a).startThread a
        else (w.asSlave frequency a).deinit a
      else w.asSlave frequency a := rfl

/-- A slave that is up gets its queue and then its thread. -/
theorem inv_startThread (w : World) (a : Sdk) (h : Inv w) (hinit : w.wire.initialized = true)
    (hmode : w.wire.slave_mode = true) (hready : w.queueReady a = true) :
    Inv ((w.initSlaveEventQueue a).startThread a) := by
  -- the queue is there, or it is made now
  have hqueue : Inv (w.initSlaveEventQueue a) ∧
      (w.initSlaveEventQueue a).wire.queue_init = true := by
    unfold World.initSlaveEventQueue
    split
    · next hthere => exact ⟨h, hthere⟩
    · next hnone =>
      have hmade : a.queue = true := by
        simpa [World.queueReady, hnone] using hready
      rw [if_pos hmade]
      have hempty := empty_of_held w h.held (Bool.eq_false_iff.2 hnone)
      refine ⟨⟨⟨h.held.threads, ?_, h.held.running, fun _ => rfl, fun _ => hinit⟩, fun _ => hmode,
        h.inForce, h.slave, h.mode, h.role⟩, rfl⟩
      change w.queues + 1 = 1
      rw [hempty.queues]
  rcases hqueue with ⟨hinv, hthere⟩
  unfold World.startThread
  split
  · exact hinv
  · next hnone =>
    refine ⟨⟨?_, hinv.held.queues, fun _ => rfl, fun _ => hthere, hinv.held.up⟩, hinv.only,
      hinv.inForce, hinv.slave, hinv.mode, hinv.role⟩
    change _ + a.thread.toNat = a.thread.toNat
    rw [hinv.held.threads, Bool.eq_false_iff.2 hnone, Bool.toNat_false, Nat.zero_add]

/-- A master without thread or queue. -/
theorem inv_beginMaster (w : World) (frequency : Nat) (a : Sdk) (h : Empty w)
    (hmode : w.wire.slave_mode = false) (hrole : w.requested = .master) :
    Inv (w.beginMaster frequency a) := by
  have hempty : Empty (w.beginMaster frequency a) :=
    ⟨h.slave_thread, h.queue_init, h.threads, h.queues⟩
  refine inv_of_empty _ hempty ?_ ?_ (fun _ => hrole) ?_
  -- `init` leaves the bus as the master that was asked for
  · intro hinit
    have hok : a.init = true := hinit
    simp only [World.beginMaster, World.init, hok, if_true, hrole]
  · intro _ hslave
    exact absurd (hmode.symm.trans hslave) Bool.false_ne_true
  · intro role hsome
    simp only [World.beginMaster, World.init] at hsome
    split at hsome
    · rw [← Option.some.inj hsome]
      exact hrole.symm
    · exact absurd hsome (by simp)

/-- A slave that comes up in the role asked for, or does not come up. -/
theorem inv_beginSlave (w : World) (frequency : Nat) (a : Sdk) (h : Empty w)
    (hmode : w.wire.slave_mode = true)
    (hrole : w.ComesUp false a → w.requested = .slave w.wire.address) :
    Inv (w.beginSlave frequency a) := by
  have hempty : Empty (w.asSlave frequency a) := ⟨h.slave_thread, h.queue_init, h.threads, h.queues⟩
  have hmaster : w.wire.slave_mode = false → w.requested = .master :=
    fun hno => absurd (hno.symm.trans hmode) Bool.false_ne_true
  -- The role is only looked at where the bus is left in it.
  have hasSlave : (a.init = true → w.requested = .slave w.wire.address) →
      Inv (w.asSlave frequency a) := by
    intro hasked
    refine inv_of_empty _ hempty ?_ (fun hinit _ => ⟨_, hasked hinit⟩) hmaster ?_
    · intro hinit
      have hok : a.init = true := hinit
      simp only [World.asSlave, World.init, hok, if_true, hasked hok]
    · intro role hsome
      simp only [World.asSlave, World.init] at hsome
      split at hsome
      · next hok =>
        rw [← Option.some.inj hsome]
        exact (hasked hok).symm
      · exact absurd hsome (by simp)
  rw [beginSlave_eq]
  split
  · next hserve =>
    rcases Bool.and_eq_true_iff.1 hserve with ⟨hok, hcalls⟩
    -- the queue is there, so the thread is started over it
    split
    · next hready =>
      have hqueue : a.queue = true := by
        simpa [World.queueReady, h.queue_init] using hready
      have hasked := hrole ⟨hok, fun _ => Or.inr (Or.inl hqueue)⟩
      exact inv_startThread _ a (hasSlave fun _ => hasked) hok hmode hready
    -- without a queue the bus is taken down again, if it stops
    · next hnone =>
      refine inv_of_empty _ ⟨h.slave_thread, h.queue_init, h.threads, h.queues⟩
        (fun hno => absurd hno Bool.false_ne_true) (fun hno => absurd hno Bool.false_ne_true)
        hmaster ?_
      intro role hsome
      simp only [World.deinit, World.asSlave, World.init, hok, if_true] at hsome
      split at hsome
      · exact absurd hsome (by simp)
      · next hstays =>
        rw [← Option.some.inj hsome]
        exact (hrole ⟨hok, fun _ => Or.inr (Or.inr (Bool.eq_false_iff.2 hstays))⟩).symm
  · next hserve =>
    refine hasSlave fun hok => hrole ⟨hok, fun hcalls => ?_⟩
    exact absurd (Bool.and_eq_true_iff.2 ⟨hok, hcalls⟩) hserve

/-- The bus of a slave that comes up. -/
theorem bus_beginSlave (w : World) (frequency : Nat) (a : Sdk) (hok : a.init = true)
    (hqueue : w.callbacks = true → w.queueReady a = true ∨ a.stopped = false) :
    (w.beginSlave frequency a).bus = some (.slave w.wire.address) := by
  have hbus : (w.asSlave frequency a).bus = some (.slave w.wire.address) := by
    simp only [World.asSlave, World.init, hok, if_true]
  rw [beginSlave_eq]
  -- whatever becomes of the thread, the bus was brought up
  split
  · next hserve =>
    split
    · simp only [World.startThread, World.initSlaveEventQueue]
      repeat' split
      all_goals exact hbus
    · next hnone =>
      have hstays : a.stopped = false := by
        rcases hqueue (Bool.and_eq_true_iff.1 hserve).2 with hyes | hstays
        · exact absurd hyes hnone
        · exact hstays
      simp only [World.deinit, hstays, Bool.false_eq_true, if_false]
      exact hbus
  · exact hbus

/-- `begin(sda, scl, frequency)` without thread or queue. -/
theorem inv_beginPins (w : World) (frequency : Nat) (a : Sdk) (h : Empty w)
    (hmode : w.wire.slave_mode = false → w.requested = .master)
    (hrole : w.wire.slave_mode = true → w.ComesUp false a → w.requested = .slave w.wire.address) :
    Inv (w.beginPins frequency a) := by
  have hempty : Empty { w with wire := { w.wire with frequency := frequency } } :=
    ⟨h.slave_thread, h.queue_init, h.threads, h.queues⟩
  unfold World.beginPins
  simp only []
  split
  · next hslave => exact inv_beginSlave _ frequency a hempty hslave (hrole hslave)
  · next hmaster =>
    have hno := Bool.eq_false_iff.2 hmaster
    exact inv_beginMaster _ frequency a hempty hno (hmode hno)

/-! ### Stopping -/

/-- `end` changes no role but that of the bus. -/
theorem end_frame (w : World) (a : Sdk) :
    (w.end_ a).requested = w.requested ∧ (w.end_ a).wire.slave_mode = w.wire.slave_mode ∧
    (w.end_ a).wire.address = w.wire.address ∧ (w.end_ a).callbacks = w.callbacks ∧
    ((w.end_ a).bus = none ∨ (w.end_ a).bus = w.bus) := by
  simp only [World.end_, World.freeQueue, World.joinThread, World.deinit, World.callbacks]
  repeat' split
  all_goals simp

theorem joinThread_gone (w : World) (a : Sdk) (h : Held w)
    (hjoined : w.wire.slave_thread = true → a.joined = true) :
    (w.joinThread a).wire.slave_thread = false ∧ (w.joinThread a).threads = 0 := by
  unfold World.joinThread
  cases hthread : w.wire.slave_thread with
  | false =>
      have hnone : w.threads = 0 := by
        rw [h.threads, hthread]
        rfl
      split
      · exact ⟨hthread, hnone⟩
      · exact ⟨hthread, hnone⟩
  | true =>
      -- the thread is asked to end, and joined
      rw [if_pos (h.running hthread), if_pos rfl]
      refine ⟨rfl, ?_⟩
      change w.threads - a.joined.toNat = 0
      rw [h.threads, hthread, hjoined hthread]
      rfl

theorem joinThread_queue (w : World) (a : Sdk) :
    (w.joinThread a).wire.queue_init = w.wire.queue_init ∧ (w.joinThread a).queues = w.queues := by
  unfold World.joinThread
  repeat' split
  all_goals exact ⟨rfl, rfl⟩

/-- What `end` takes down is gone. -/
theorem idle_end_ (w : World) (a : Sdk) (h : Held w) (hfrees : w.Frees a) :
    Empty (w.end_ a) ∧ (w.end_ a).wire.initialized = false := by
  unfold World.end_
  split
  · next hinit =>
    have hgone := joinThread_gone w a h (hfrees hinit).1
    have hqueue := joinThread_queue w a
    simp only [World.freeQueue, hqueue.1]
    split
    · next hthere =>
      refine ⟨⟨hgone.1, rfl, hgone.2, ?_⟩, rfl⟩
      change (w.joinThread a).queues - a.freed.toNat = 0
      rw [hqueue.2, h.queues, hthere, (hfrees hinit).2 hthere]
      rfl
    · next hnone =>
      -- without a queue there was no thread either
      have hempty := empty_of_held w h (Bool.eq_false_iff.2 hnone)
      exact ⟨⟨hgone.1, hqueue.1.trans hempty.queue_init, hgone.2, hqueue.2.trans hempty.queues⟩,
        rfl⟩
  · next hdown =>
    have hno : w.wire.queue_init = false := by
      cases hqueue : w.wire.queue_init with
      | false => rfl
      | true => exact absurd (h.up hqueue) hdown
    exact ⟨empty_of_held w h hno, Bool.eq_false_iff.2 hdown⟩

/-! ### One event -/

/-- Nothing else of the object matters. -/
theorem inv_with (w : World) (t : TwoWire) (h : Inv w) (hinit : t.initialized = w.wire.initialized)
    (hmode : t.slave_mode = w.wire.slave_mode) (hthread : t.slave_thread = w.wire.slave_thread)
    (hrunning : t.slave_thread_running = w.wire.slave_thread_running)
    (hqueue : t.queue_init = w.wire.queue_init) : Inv { w with wire := t } := by
  refine ⟨⟨?_, ?_, ?_, ?_, ?_⟩, ?_, ?_, ?_, ?_, h.role⟩
  all_goals simp only [hinit, hmode, hthread, hrunning, hqueue]
  · exact h.held.threads
  · exact h.held.queues
  · exact h.held.running
  · exact h.held.served
  · exact h.held.up
  · exact h.only
  · exact h.inForce
  · exact h.slave
  · exact h.mode

/-- Starting again from a bus that may be up, if not in the role of a slave. -/
theorem inv_rebegin (w : World) (frequency : Nat) (a : Sdk) (h : Inv w)
    (hfails : w.wire.slave_mode = true → w.wire.queue_init = false ∧ ¬w.ComesUp false a) :
    Inv ({ w with requested := .master }.beginPins frequency a) := by
  have hqueue : w.wire.queue_init = false := by
    cases hmode : w.wire.slave_mode with
    | true => exact (hfails hmode).1
    | false =>
        cases hthere : w.wire.queue_init with
        | false => rfl
        | true => exact absurd (hmode.symm.trans (h.only hthere)) Bool.false_ne_true
  have hempty := empty_of_held w h.held hqueue
  exact inv_beginPins _ frequency a
    ⟨hempty.slave_thread, hempty.queue_init, hempty.threads, hempty.queues⟩ (fun _ => rfl)
    (fun hmode hup => absurd hup (hfails hmode).2)

/-- A `begin` behind an `end`. -/
theorem inv_end_beginPins (w : World) (frequency : Nat) (a b : Sdk) (h : Held w)
    (hfrees : w.Frees a) (hmode : w.wire.slave_mode = false → w.requested = .master)
    (hrole : w.wire.slave_mode = true → w.ComesUp false b → w.requested = .slave w.wire.address) :
    Inv ((w.end_ a).beginPins frequency b) := by
  rcases end_frame w a with ⟨hrequested, hslave, haddress, hcalls, -⟩
  refine inv_beginPins _ frequency b (idle_end_ w a h hfrees).1 ?_ ?_
  · rw [hrequested, hslave]
    exact hmode
  · rw [hrequested, hslave, haddress, World.ComesUp, hcalls]
    exact hrole

theorem inv_serve (w : World) (a : Sdk) (h : Inv w) : Inv (w.serve a) := by
  unfold World.serve
  split
  · next hserve =>
    rcases Bool.and_eq_true_iff.1 hserve with ⟨hup, -⟩
    rcases Bool.and_eq_true_iff.1 hup with ⟨hinit, hmode⟩
    split
    · next hready => exact inv_startThread w a h hinit hmode hready
    · exact h
  · exact h

/-- A wire that is down holds nothing, so it is begun from an empty state. -/
theorem inv_ensureInit (w : World) (a : Sdk) (h : Inv w)
    (horderly : Orderly w (.endTransmission a)) : Inv (w.ensureInit a) := by
  unfold World.ensureInit
  split
  · exact h
  · next hdown =>
    have hno := Bool.eq_false_iff.2 hdown
    have hqueue : w.wire.queue_init = false := by
      cases hthere : w.wire.queue_init with
      | false => rfl
      | true => exact absurd (h.held.up hthere) hdown
    exact inv_beginPins w _ a (empty_of_held w h.held hqueue) h.mode (horderly hno)

/-- An event that starts no slave by another name keeps all of it. -/
theorem inv_step (w : World) (e : Event) (h : Inv w) (hreleases : Releases w e)
    (horderly : Orderly w e) : Inv (step w e) := by
  -- `begin` comes after `end` for a change of role, the rest keeps what is held
  cases e with
  | begin a => exact inv_rebegin w _ a h horderly
  | beginPins frequency a => exact inv_rebegin w frequency a h horderly
  | beginAddress address a b =>
      refine inv_end_beginPins _ _ a b ?_ hreleases ?_ ?_
      · exact ⟨h.held.threads, h.held.queues, h.held.running, h.held.served, h.held.up⟩
      · intro hmode
        have hzero : address = 0 := by simpa using hmode
        exact if_pos hzero
      · intro hmode _
        have hsome : address ≠ 0 := by simpa using hmode
        exact if_neg hsome
  | setClock freq a b =>
      have hfreq : Inv { w with wire := { w.wire with frequency := freq } } :=
        inv_with w _ h rfl rfl rfl rfl rfl
      simp only [step, World.setClock]
      split
      · next hinit =>
        exact inv_end_beginPins _ _ a b hfreq.held hreleases h.mode (horderly hinit)
      · exact hfreq
  | beginTransmission address => exact inv_with w _ h rfl rfl rfl rfl rfl
  | endTransmission a =>
      have hensure := inv_ensureInit w a h horderly
      simp only [step, World.endTransmission]
      split
      · exact inv_with _ _ hensure rfl rfl rfl rfl rfl
      · exact hensure
  | onReceive callback a => exact inv_serve _ a (inv_with w _ h rfl rfl rfl rfl rfl)
  | onRequest callback a => exact inv_serve _ a (inv_with w _ h rfl rfl rfl rfl rfl)
  | end_ a =>
      -- behind `end` nothing is held any more
      rcases idle_end_ w a h.held hreleases with ⟨hempty, hdown⟩
      rcases end_frame w a with ⟨hrequested, hslave, -, -, hbus⟩
      have hno : (step w (.end_ a)).wire.initialized ≠ true := by
        rw [step, hdown]
        exact Bool.false_ne_true
      refine inv_of_empty _ hempty (fun hinit => absurd hinit hno) (fun hinit => absurd hinit hno)
        ?_ ?_
      · rw [step, hrequested, hslave]
        exact h.mode
      · intro role hrole
        rw [step, hrequested]
        rcases hbus with hnone | hsame
        · exact absurd (hnone.symm.trans hrole) (by simp)
        · exact h.role role (hsame.symm.trans hrole)

theorem requested_beginSlave (w : World) (frequency : Nat) (a : Sdk) :
    (w.beginSlave frequency a).requested = w.requested := by
  simp only [World.beginSlave, World.startThread, World.initSlaveEventQueue, World.deinit,
    World.init]
  repeat' split
  all_goals rfl

/-- A slave that comes up in the law was asked for. -/
theorem requested_of_lawful (w : World) (frequency : Nat) (a : Sdk)
    (hmode : w.wire.slave_mode = true) (hup : w.ComesUp false a)
    (h : Lawful (w.beginPins frequency a)) : w.requested = .slave w.wire.address := by
  have hslave : w.beginPins frequency a =
      { w with wire := { w.wire with frequency := frequency } }.beginSlave frequency a :=
    if_pos hmode
  rw [hslave] at h
  have hqueue : w.callbacks = true → w.queueReady a = true ∨ a.stopped = false := by
    intro hcalls
    rcases hup.2 hcalls with hno | hmade | hstays
    · exact absurd hno Bool.false_ne_true
    · exact Or.inl (Bool.or_eq_true_iff.2 (Or.inr hmade))
    · exact Or.inr hstays
  have hrole := h.role _ (bus_beginSlave _ frequency a hup.1 hqueue)
  rw [requested_beginSlave] at hrole
  exact hrole.symm

/-- A slave with a queue that is begun again as a master is up as a slave, or down
with the queue. -/
theorem not_lawful_rebegin (w : World) (frequency : Nat) (a : Sdk) (h : Inv w)
    (hqueue : w.wire.queue_init = true) :
    ¬Lawful ({ w with requested := .master }.beginPins frequency a) := by
  intro hlaw
  have hslave : { w with requested := .master }.beginPins frequency a =
      { w with requested := .master
               wire := { w.wire with frequency := frequency } }.beginSlave frequency a :=
    if_pos (h.only hqueue)
  rw [hslave] at hlaw
  -- the bus is brought up as a slave, though a master was asked for
  cases hok : a.init with
  | true =>
      have hready : w.queueReady a = true := Bool.or_eq_true_iff.2 (Or.inl hqueue)
      have hrole := hlaw.role _ (bus_beginSlave _ frequency a hok fun _ => Or.inl hready)
      rw [requested_beginSlave] at hrole
      exact absurd hrole (by simp)
  -- the bus is down, yet the queue is still there
  | false =>
      simp only [beginSlave_eq, hok, Bool.false_and, Bool.false_eq_true, if_false] at hlaw
      have hone : 0 < w.queues := by
        rw [h.held.queues, hqueue]
        exact Nat.zero_lt_one
      rcases hlaw.slave (Or.inr hone) with ⟨address, hbus⟩
      simp [World.asSlave, World.init, hok] at hbus

/-- A lawful `begin` of a slave finds its queue down, and does not come up. -/
theorem down_of_lawful (w : World) (frequency : Nat) (a : Sdk) (h : Inv w)
    (hlaw : Lawful ({ w with requested := .master }.beginPins frequency a))
    (hmode : w.wire.slave_mode = true) :
    w.wire.queue_init = false ∧ ¬w.ComesUp false a := by
  refine ⟨?_, ?_⟩
  · cases hqueue : w.wire.queue_init with
    | false => rfl
    | true => exact absurd hlaw (not_lawful_rebegin w frequency a h hqueue)
  · intro hup
    have hasked :=
      requested_of_lawful { w with requested := .master } frequency a hmode hup hlaw
    exact absurd hasked (by simp)

/-- An event that keeps the law starts no slave by another name. -/
theorem orderly_of_lawful (w : World) (e : Event) (h : Inv w) (hlaw : StaysLawful w e)
    (hreleases : Releases w e) : Orderly w e := by
  cases e with
  | begin a => exact down_of_lawful w w.wire.frequency a h hlaw
  | beginPins frequency a => exact down_of_lawful w frequency a h hlaw
  | setClock freq a b =>
      intro hinit hmode hup
      have hfreq : step w (.setClock freq a b) =
          ({ w with wire := { w.wire with frequency := freq } }.end_ a).begin b := if_pos hinit
      rw [StaysLawful, hfreq] at hlaw
      rcases end_frame { w with wire := { w.wire with frequency := freq } } a with
        ⟨hrequested, hslave, haddress, hcalls, -⟩
      have hasked := requested_of_lawful _ _ b (hslave.trans hmode)
        (by rw [World.ComesUp, hcalls]; exact hup) hlaw
      rw [hrequested, haddress] at hasked
      exact hasked
  | endTransmission a =>
      intro hdown hmode hup
      -- `ensureInit` begins the wire here, in the mode it was left in.
      have hensure : w.ensureInit a = w.begin a :=
        if_neg (by rw [hdown]; exact Bool.false_ne_true)
      have hbegin : Lawful (w.begin a) := by
        have hsame : Lawful (w.endTransmission a) := hlaw
        simp only [World.endTransmission, hensure] at hsame
        split at hsame
        · exact ⟨hsame.thread, hsame.queue, hsame.slave, hsame.role⟩
        · exact hsame
      exact requested_of_lawful w _ a hmode hup hbegin
  | _ => exact True.intro

/-- Along every sequence of the calls with any answers of the SDK, there is at most
one thread and one queue, they are there only while the bus is up as a slave, and
its role is the one asked for, if no slave is started by another name and what is
taken down is gone. Where it is gone, only so. -/
theorem lifecycle_iff (es : List Event) :
    (EventRun.Always step (fun w e => Releases w e ∧ Orderly w e) {} es →
      EventRun.Always step StaysLawful {} es) ∧
    (EventRun.Always step Releases {} es → EventRun.Always step StaysLawful {} es →
      EventRun.Always step Orderly {} es) := by
  have hstart : Inv {} :=
    inv_of_empty {} ⟨rfl, rfl, rfl, rfl⟩ (fun hno => absurd hno Bool.false_ne_true)
      (fun hno => absurd hno Bool.false_ne_true) (fun _ => rfl)
      (fun role hno => absurd hno (by simp))
  refine ⟨?_, ?_⟩
  · exact EventRun.always_of_inv (I := Inv)
      (fun w e h hok => lawful_of_inv _ (inv_step w e h hok.1 hok.2))
      (fun w e h hok => inv_step w e h hok.1 hok.2) hstart
  · intro hreleases hlaw
    have hboth := (EventRun.always_and step Releases StaysLawful {} es).2 ⟨hreleases, hlaw⟩
    exact EventRun.always_of_inv (I := Inv)
      (fun w e h hok => orderly_of_lawful w e h hok.2 hok.1)
      (fun w e h hok => inv_step w e h hok.1 (orderly_of_lawful w e h hok.2 hok.1)) hstart hboth

/-- A slave that is set up, slowed down and taken down. -/
theorem slave_session_lawful : EventRun.Always step StaysLawful {}
    [.onReceive true {}, .beginAddress 8 {} {}, .setClock 50000 {} {}, .end_ {}] := by
  refine (lifecycle_iff _).1
    ⟨⟨True.intro, True.intro⟩, ⟨?_, True.intro⟩, ⟨?_, ?_⟩, ⟨?_, True.intro⟩,
    True.intro⟩
  · intro _
    exact ⟨fun _ => rfl, fun _ => rfl⟩
  · intro _
    exact ⟨fun _ => rfl, fun _ => rfl⟩
  · intro _ _ _
    decide
  · intro _
    exact ⟨fun _ => rfl, fun _ => rfl⟩

/-- A slave at 8 addresses a device at 80 and then changes the clock. -/
theorem slave_moves_address : ¬ ∀ es, EventRun.Always step StaysLawful {} es := by
  intro hall
  have hrun := hall [.beginAddress 8 {} {}, .beginTransmission 80, .setClock 400000 {} {}]
  exact absurd (hrun.2.2.1.role (.slave 80) (by decide)) (by decide)

/-- A slave is begun as a master, and is a slave again. -/
example : (step (step {} (.beginAddress 8 {} {})) (.begin {})).bus = some (.slave 8) := by decide

/-- It is begun as a master and fails, and its thread is left. -/
example : (step (step (step (step {} (.onReceive true {})) (.beginAddress 8 {} {}))
    (.begin { init := false })) (.end_ {})).threads = 1 := by decide

end Lifecycle

end Wire

end ArduinoBeken
