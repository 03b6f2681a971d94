import ArduinoBeken.Library.Run
import Mathlib.Logic.Function.Basic

/-!
# Hardware Timers

A tick of a hardware timer goes through `g_hardware_timers`, which has one object for each
timer id. `begin` writes the table and nothing clears it, while `start`, `stop` and the
destructor act on the hardware timer itself, which the objects of one id share.

Objects are known by their addresses. Calls and ticks are single events, and a callback
makes its calls behind the tick. What the driver answers is part of an event, and a stop
that fails leaves the timer running.

A tick goes to the object that last started the timer and has not stopped it if and only
if that is also the one that last ran `begin` for the id (`ticks_routed_iff`). Objects that leave
each other's timers alone see to that (`routes_of_considerate`).

## Main definitions

* `HardwareTimer`, `World`: An object, and the objects with the table and the hardware.
* `beginTimer`, `start`, `startMicroseconds`, `stop`: The methods.
* `hardwareTimerThunk`: The object that a tick is delivered to.
* `Routes`: The law.
* `BegunByOwner`, `Considerate`: The condition, and one that an object can keep by itself.

## Theorems

* `inv_step`: What holds in every state.
* `ticks_routed_iff`: The law along a run.
* `routes_of_considerate`: The law for objects that do not share a timer in use.
-/

namespace ArduinoBeken

namespace Core.Timer

/-- `TIMER_ID_MAX`. -/
def timerIdMax : Nat := 6

/-- The members of an object. -/
structure HardwareTimer where
  timerId : UInt8 := 4
  callback : Option Nat := none
  periodMs : UInt32 := 0
  periodUs : UInt64 := 0
  initialized : Bool := false
  running : Bool := false
deriving DecidableEq, Repr

/-- The number of the timer. -/
def HardwareTimer.id (t : HardwareTimer) : Nat := t.timerId.toNat

/-- The objects by address, `g_hardware_timers`, `g_timer_driver_initialized` and which
hardware timers run. Two fields are history: the object that last started a timer and has
not stopped it since, and the one that last ran `begin` for its id. `called` has the
callbacks that were called. -/
structure World where
  objects : Nat → Option HardwareTimer := fun _ => none
  table : Nat → Option Nat := fun _ => none
  driverInitialized : Bool := false
  hardware : Nat → Bool := fun _ => false
  owner : Nat → Option Nat := fun _ => none
  begunBy : Nat → Option Nat := fun _ => none
  called : List Nat := []

/-- What the driver answers to a call. -/
structure Answers where
  driverInited : Bool := true
  stopped : Bool := true
  started : Bool := true
deriving DecidableEq, Repr

namespace World

variable (w : World) (a : Nat)

/-- The world with another object at that address. -/
def put (t : Option HardwareTimer) : World :=
  { w with objects := Function.update w.objects a t }

/-! ### The methods -/

/-- `begin` behind its checks. -/
def register (t : HardwareTimer) : World :=
  { w.put a (some { t with initialized := true }) with
    driverInitialized := true
    table := Function.update w.table t.id (some a)
    begunBy := Function.update w.begunBy t.id (some a) }

/-- `begin`, with whether the driver could be initialised. -/
def beginTimer (driverInited : Bool) : World × Bool :=
  match w.objects a with
  | none => (w, false)
  | some t =>
    if timerIdMax ≤ t.id then (w, false)
    else if !w.driverInitialized && !driverInited then (w, false)
    else (w.register a t, true)

/-- `stop` of an object that is running. -/
def halt (t : HardwareTimer) (stopped : Bool) : World :=
  { w.put a (some { t with running := false }) with
    hardware := if stopped then Function.update w.hardware t.id false else w.hardware
    owner := if w.owner t.id = some a then Function.update w.owner t.id none else w.owner }

/-- `stop` of an object that runs. -/
def stop (stopped : Bool) : World :=
  match w.objects a with
  | none => w
  | some t => if t.running then w.halt a t stopped else w

/-- What `start` does when the driver has started the timer. -/
def launch (t : HardwareTimer) (ms : UInt32) (us : UInt64) : World :=
  { w.put a (some { t with periodMs := ms, periodUs := us, running := true }) with
    hardware := Function.update w.hardware t.id true
    owner := Function.update w.owner t.id (some a) }

/-- The first check of `start`. -/
def ensureBegun (driverInited : Bool) : World × Bool :=
  match w.objects a with
  | none => (w, false)
  | some t => if t.initialized then (w, true) else w.beginTimer a driverInited

/-- The body that `start` and `startMicroseconds` share. -/
def startWith (ms : UInt32) (us : UInt64) (answers : Answers) : World × Bool :=
  let r := w.ensureBegun a answers.driverInited
  if r.2 then
    -- The timer is stopped if this object runs it, which says nothing of the others.
    let w := r.1.stop a answers.stopped
    match w.objects a with
    | some t => if answers.started then (w.launch a t ms us, true) else (w, false)
    | none => (w, false)
  else (r.1, false)

/-- `start` for milliseconds. -/
def start (ms : UInt32) (answers : Answers) : World × Bool :=
  w.startWith a ms (ms.toUInt64 * 1000) answers

/-- `startMicroseconds`. The milliseconds are rounded down. -/
def startMicroseconds (us : UInt64) (answers : Answers) : World × Bool :=
  w.startWith a (us / 1000).toUInt32 us answers

/-- `attachInterrupt`: the callback is kept in the object. -/
def attachInterrupt (callback : Option Nat) : World :=
  match w.objects a with
  | some t => w.put a (some { t with callback })
  | none => w

/-- A new object, where none is. -/
def construct (timerId : UInt8) : World :=
  match w.objects a with
  | some _ => w
  | none => w.put a (some { timerId })

/-- The destructor stops the timer. -/
def destroy (stopped : Bool) : World :=
  (w.stop a stopped).put a none

/-- The object whose `invoke` is called. -/
def hardwareTimerThunk (id : Nat) : Option Nat :=
  if timerIdMax ≤ id then none else w.table id

/-- The callback that `invoke` calls. -/
def invoke : Option Nat :=
  (w.objects a).bind HardwareTimer.callback

/-- A tick, which comes only if the timer runs. -/
def tick (id : Nat) : World :=
  if w.hardware id then
    { w with called := w.called ++ ((w.hardwareTimerThunk id).bind w.invoke).toList }
  else w

end World

/-- The calls of the sketch, by the address of the object, and the ticks, by timer. -/
inductive Event where
  | construct (a : Nat) (timerId : UInt8)
  | beginTimer (a : Nat) (driverInited : Bool)
  | attachInterrupt (a : Nat) (callback : Option Nat)
  | start (a : Nat) (ms : UInt32) (answers : Answers)
  | startMicroseconds (a : Nat) (us : UInt64) (answers : Answers)
  | stop (a : Nat) (stopped : Bool)
  | destroy (a : Nat) (stopped : Bool)
  | tick (id : Nat)
deriving DecidableEq, Repr

/-- One call or one tick. -/
def step (w : World) : Event → World
  | .construct a timerId => w.construct a timerId
  | .beginTimer a driverInited => (w.beginTimer a driverInited).1
  | .attachInterrupt a callback => w.attachInterrupt a callback
  | .start a ms answers => (w.start a ms answers).1
  | .startMicroseconds a us answers => (w.startMicroseconds a us answers).1
  | .stop a stopped => w.stop a stopped
  | .destroy a stopped => w.destroy a stopped
  | .tick id => w.tick id

/-! ### The law and the conditions -/

/-- A tick is delivered to a live object, the one that last started the timer and has not
stopped it. -/
def Routes (w : World) : Event → Prop
  | .tick id => w.hardware id = true →
    ∀ a ∈ w.hardwareTimerThunk id, (w.objects a).isSome ∧ w.owner id = some a
  | _ => True

/-- When a timer ticks, the object that last ran `begin` for it, in `start` or before, is
the one that last started it and has not stopped it. -/
def BegunByOwner (w : World) : Event → Prop
  | .tick id => w.hardware id = true → w.begunBy id = w.owner id
  | _ => True

/-- An object runs `begin` and `start` only for a timer that does not run, or that it has
started itself, and `start` only if no other object ran `begin` since. No stop fails. -/
def Considerate (w : World) : Event → Prop
  | .beginTimer a _ => ∀ t ∈ w.objects a, w.hardware t.id = true → w.owner t.id = some a
  | .start a _ answers | .startMicroseconds a _ answers =>
    answers.stopped = true ∧ ∀ t ∈ w.objects a,
      (w.hardware t.id = true → w.owner t.id = some a) ∧
        (t.initialized = true → w.begunBy t.id = some a)
  | .stop _ stopped | .destroy _ stopped => stopped = true
  | _ => True

/-! ### What holds in every state -/

/-- The invariant: what the table has, what is ready, and which objects the timers belong to. -/
structure Inv (w : World) : Prop where
  begun : w.table = w.begunBy
  ready : ∀ a t, w.objects a = some t → t.initialized = true →
    t.id < timerIdMax ∧ (w.table t.id).isSome
  live : ∀ id a, w.owner id = some a → ∃ t, w.objects a = some t ∧ t.running = true ∧ t.id = id
  ticking : ∀ id, w.hardware id = true → id < timerIdMax ∧ (w.table id).isSome

section Steps

variable (w : World) (a : Nat)

/-- An entry of a table behind an update is the new one or an old one. -/
theorem update_cases {α : Type*} {f : Nat → Option α} {i j : Nat} {v : Option α} {x : α}
    (h : Function.update f i v j = some x) : (j = i ∧ v = some x) ∨ (j ≠ i ∧ f j = some x) := by
  by_cases hij : j = i
  · subst hij
    exact Or.inl ⟨rfl, (Function.update_self j v f).symm.trans h⟩
  · exact Or.inr ⟨hij, (Function.update_of_ne hij v f).symm.trans h⟩

/-- The invariant holds before any timer is made. -/
theorem inv_init : Inv {} :=
  ⟨rfl, fun _ _ hno => absurd hno (Option.some_ne_none _).symm,
    fun _ _ hno => absurd hno (Option.some_ne_none _).symm,
    fun _ hno => absurd hno Bool.false_ne_true⟩

/-- An object is replaced by one with the same id that runs if it did. -/
theorem inv_put (t t' : HardwareTimer) (h : Inv w) (ht : w.objects a = some t)
    (hid : t'.id = t.id) (hinit : t'.initialized = true → t.initialized = true)
    (hrun : t.running = true → t'.running = true) : Inv (w.put a (some t')) := by
  refine ⟨h.begun, fun b u hu hin => ?_, fun id b hb => ?_, h.ticking⟩
  · rcases update_cases hu with ⟨rfl, hnew⟩ | ⟨hba, hold⟩
    · obtain rfl := Option.some.inj hnew
      rw [hid]
      exact h.ready b t ht (hinit hin)
    · exact h.ready b u hold hin
  · rcases h.live id b hb with ⟨u, hu, hurun, huid⟩
    by_cases hba : b = a
    · subst hba
      obtain rfl := Option.some.inj (ht.symm.trans hu)
      exact ⟨t', Function.update_self _ _ _, hrun hurun, hid.trans huid⟩
    · exact ⟨u, (Function.update_of_ne hba _ _).trans hu, hurun, huid⟩

/-- Registering fills the timer's own slot. -/
theorem table_register (t : HardwareTimer) (id : Nat) :
    ((w.register a t).table id).isSome ↔ id = t.id ∨ (w.table id).isSome := by
  by_cases hid : id = t.id
  · subst hid
    simp [World.register]
  · simp [World.register, hid]

/-- Registering keeps the invariant. -/
theorem inv_register (t : HardwareTimer) (h : Inv w) (ht : w.objects a = some t)
    (hid : t.id < timerIdMax) : Inv (w.register a t) := by
  refine ⟨?_, fun b u hu hin => ?_, fun id b hb => ?_, fun id hon => ?_⟩
  -- The table is written by `begin` alone, so it has who ran that last.
  · exact congrArg (fun f => Function.update f t.id (some a)) h.begun
  · rw [table_register]
    rcases update_cases hu with ⟨rfl, hnew⟩ | ⟨hba, hold⟩
    · obtain rfl := Option.some.inj hnew
      exact ⟨hid, Or.inl rfl⟩
    · have hready := h.ready b u hold hin
      exact ⟨hready.1, Or.inr hready.2⟩
  · rcases h.live id b hb with ⟨u, hu, hurun, huid⟩
    by_cases hba : b = a
    · subst hba
      obtain rfl := Option.some.inj (ht.symm.trans hu)
      exact ⟨{ t with initialized := true }, Function.update_self _ _ _, hurun, huid⟩
    · exact ⟨u, (Function.update_of_ne hba _ _).trans hu, hurun, huid⟩
  · rw [table_register]
    exact ⟨(h.ticking id hon).1, Or.inr (h.ticking id hon).2⟩

/-- What is left of the owners when an object stops. -/
theorem owner_halt (t : HardwareTimer) (stopped : Bool) (id b : Nat) :
    (w.halt a t stopped).owner id = some b ↔ w.owner id = some b ∧ ¬(id = t.id ∧ b = a) := by
  unfold World.halt
  by_cases hown : w.owner t.id = some a
  · by_cases hid : id = t.id
    · subst hid
      simp only [hown, if_true, Function.update_self, Option.some.injEq, true_and, reduceCtorEq,
        false_iff, not_and, not_not]
      exact fun hab => hab.symm
    · simp only [hown, if_true, Function.update_of_ne hid, hid, false_and, not_false_eq_true,
        and_true]
  · simp only [if_neg hown, iff_self_and]
    rintro hb ⟨rfl, rfl⟩
    exact hown hb

/-- Halting starts no timer. -/
theorem hardware_halt (t : HardwareTimer) (stopped : Bool) (id : Nat)
    (hon : (w.halt a t stopped).hardware id = true) : w.hardware id = true := by
  unfold World.halt at hon
  by_cases hstop : stopped = true
  · simp only [hstop, if_true] at hon
    by_cases hid : id = t.id
    · subst hid
      rw [Function.update_self] at hon
      exact absurd hon Bool.false_ne_true
    · rwa [Function.update_of_ne hid] at hon
  · simpa only [if_neg hstop] using hon

/-- Halting keeps the invariant. -/
theorem inv_halt (t : HardwareTimer) (stopped : Bool) (h : Inv w) (ht : w.objects a = some t) :
    Inv (w.halt a t stopped) := by
  refine ⟨h.begun, fun b u hu hin => ?_, fun id b hb => ?_, fun id hon => ?_⟩
  · rcases update_cases hu with ⟨rfl, hnew⟩ | ⟨hba, hold⟩
    · obtain rfl := Option.some.inj hnew
      exact h.ready b t ht hin
    · exact h.ready b u hold hin
  · rw [owner_halt] at hb
    rcases h.live id b hb.1 with ⟨u, hu, hurun, huid⟩
    by_cases hba : b = a
    · -- an object owns no timer but its own
      subst hba
      obtain rfl := Option.some.inj (ht.symm.trans hu)
      exact absurd ⟨huid.symm, rfl⟩ hb.2
    · exact ⟨u, (Function.update_of_ne hba _ _).trans hu, hurun, huid⟩
  · exact h.ticking id (hardware_halt w a t stopped id hon)

/-- Launching an initialised timer keeps the invariant. -/
theorem inv_launch (t : HardwareTimer) (ms : UInt32) (us : UInt64) (h : Inv w)
    (ht : w.objects a = some t) (hinit : t.initialized = true) :
    Inv (w.launch a t ms us) := by
  refine ⟨h.begun, fun b u hu hin => ?_, fun id b hb => ?_, fun id hon => ?_⟩
  · rcases update_cases hu with ⟨rfl, hnew⟩ | ⟨hba, hold⟩
    · obtain rfl := Option.some.inj hnew
      exact h.ready b t ht hin
    · exact h.ready b u hold hin
  · rcases update_cases hb with ⟨rfl, hnew⟩ | ⟨hid, hold⟩
    · obtain rfl := Option.some.inj hnew
      -- The object that starts is the owner from now on, whoever was it before.
      exact ⟨_, Function.update_self _ _ _, rfl, rfl⟩
    · rcases h.live id b hold with ⟨u, hu, hurun, huid⟩
      have hba : b ≠ a := fun hba => by
        subst hba
        obtain rfl := Option.some.inj (ht.symm.trans hu)
        -- An owner has the id of its timer, and this one was found under another id.
        exact hid huid.symm
      exact ⟨u, (Function.update_of_ne hba _ _).trans hu, hurun, huid⟩
  · by_cases hid : id = t.id
    · subst hid
      exact h.ready a t ht hinit
    · exact h.ticking id ((Function.update_of_ne hid _ _).symm.trans hon)

/-! ### The methods, by what they come to -/

/-- `begin` registers the object or does nothing. -/
theorem beginTimer_cases (d : Bool) :
    w.beginTimer a d = (w, false) ∨
      ∃ t, w.objects a = some t ∧ t.id < timerIdMax ∧
        w.beginTimer a d = (w.register a t, true) := by
  unfold World.beginTimer
  cases ht : w.objects a with
  | none => exact Or.inl rfl
  | some t =>
      by_cases hid : timerIdMax ≤ t.id
      · exact Or.inl (if_pos hid)
      · by_cases hd : (!w.driverInitialized && !d) = true
        · exact Or.inl ((if_neg hid).trans (if_pos hd))
        · exact Or.inr ⟨t, rfl, Nat.lt_of_not_le hid, (if_neg hid).trans (if_neg hd)⟩

/-- `stop` halts the object or does nothing, which it does if the object is not running. -/
theorem stop_cases (stopped : Bool) :
    (w.stop a stopped = w ∧ ∀ t ∈ w.objects a, t.running = false) ∨
      ∃ t, w.objects a = some t ∧ w.stop a stopped = w.halt a t stopped := by
  unfold World.stop
  cases ht : w.objects a with
  | none => exact Or.inl ⟨rfl, fun t hno => absurd hno (Option.some_ne_none t).symm⟩
  | some t =>
      by_cases hrun : t.running = true
      · exact Or.inr ⟨t, rfl, if_pos hrun⟩
      · refine Or.inl ⟨if_neg hrun, fun u hu => ?_⟩
        obtain rfl := Option.some.inj hu
        exact Bool.eq_false_iff.2 hrun

/-- Behind the first check of `start`, the object is initialized. -/
theorem ensureBegun_cases (d : Bool) :
    w.ensureBegun a d = (w, false) ∨
      (∃ t, w.objects a = some t ∧ t.initialized = true ∧ w.ensureBegun a d = (w, true)) ∨
      ∃ t, w.objects a = some t ∧ t.initialized = false ∧ t.id < timerIdMax ∧
        w.ensureBegun a d = (w.register a t, true) := by
  unfold World.ensureBegun
  cases ht : w.objects a with
  | none => exact Or.inl rfl
  | some t =>
      by_cases hinit : t.initialized = true
      · exact Or.inr (Or.inl ⟨t, rfl, hinit, if_pos hinit⟩)
      · simp only [if_neg hinit]
        rcases beginTimer_cases w a d with hno | ⟨u, hu, hid, hyes⟩
        · exact Or.inl hno
        · obtain rfl := Option.some.inj (ht.symm.trans hu)
          exact Or.inr (Or.inr ⟨t, rfl, Bool.eq_false_iff.2 hinit, hid, hyes⟩)

/-- `stop` keeps the invariant. -/
theorem inv_stop (stopped : Bool) (h : Inv w) : Inv (w.stop a stopped) := by
  rcases stop_cases w a stopped with ⟨hno, -⟩ | ⟨t, ht, hyes⟩
  · rw [hno]
    exact h
  · rw [hyes]
    exact inv_halt w a t stopped h ht

/-- An object that stops is as it was, but for running. -/
theorem stop_object (stopped : Bool) (t : HardwareTimer) (ht : w.objects a = some t) :
    (w.stop a stopped).objects a = some { t with running := false } := by
  unfold World.stop
  simp only [ht]
  by_cases hrun : t.running = true
  · rw [if_pos hrun]
    exact Function.update_self _ _ _
  · rw [if_neg hrun, ht, ← Bool.eq_false_iff.2 hrun]

/-- `start` behind its first check. -/
theorem startWith_eq (w' : World) (ms : UInt32) (us : UInt64) (answers : Answers)
    (t : HardwareTimer) (hready : w.ensureBegun a answers.driverInited = (w', true))
    (ht : w'.objects a = some t) :
    (w.startWith a ms us answers).1 =
      if answers.started then
        (w'.stop a answers.stopped).launch a { t with running := false } ms us
      else w'.stop a answers.stopped := by
  unfold World.startWith
  simp only [hready, if_true, stop_object w' a answers.stopped t ht]
  split_ifs <;> rfl

/-- Starting keeps the invariant through every failing call in it. -/
theorem inv_startWith (ms : UInt32) (us : UInt64) (answers : Answers) (h : Inv w) :
    Inv (w.startWith a ms us answers).1 := by
  have hrest : ∀ (w' : World) (t : HardwareTimer), Inv w' → w'.objects a = some t →
      t.initialized = true → w.ensureBegun a answers.driverInited = (w', true) →
        Inv (w.startWith a ms us answers).1 := by
    intro w' t hw' ht hinit hready
    rw [startWith_eq w a w' ms us answers t hready ht]
    -- A start begins with a stop, so the launch is from a stopped object.
    have hstop := inv_stop w' a answers.stopped hw'
    split_ifs
    · exact inv_launch _ a _ ms us hstop (stop_object w' a answers.stopped t ht) hinit
    · exact hstop
  rcases ensureBegun_cases w a answers.driverInited with hno | ⟨t, ht, hinit, hyes⟩ |
    ⟨t, ht, -, hid, hyes⟩
  · unfold World.startWith
    rw [hno]
    exact h
  · exact hrest w t h ht hinit hyes
  · exact hrest _ _ (inv_register w a t h ht hid) (Function.update_self _ _ _) rfl hyes

/-- The destructor keeps the invariant. -/
theorem inv_destroy (stopped : Bool) (h : Inv w) : Inv (w.destroy a stopped) := by
  have hstop := inv_stop w a stopped h
  refine ⟨hstop.begun, fun b u hu hin => ?_, fun id b hb => ?_, hstop.ticking⟩
  · rcases update_cases hu with ⟨rfl, hnew⟩ | ⟨hba, hold⟩
    · exact absurd hnew (Option.some_ne_none _).symm
    · exact hstop.ready b u hold hin
  · rcases hstop.live id b hb with ⟨u, hu, hurun, huid⟩
    have hba : b ≠ a := fun hba => by
      -- an object that has stopped owns nothing
      subst hba
      cases ht : w.objects b with
      | none =>
          have hsame : w.stop b stopped = w := by
            unfold World.stop
            rw [ht]
          rw [hsame, ht] at hu
          exact Option.some_ne_none u hu.symm
      | some t =>
          rw [stop_object w b stopped t ht] at hu
          obtain rfl := Option.some.inj hu
          exact Bool.false_ne_true hurun
    exact ⟨u, (Function.update_of_ne hba _ _).trans hu, hurun, huid⟩

/-- The constructor keeps the invariant. -/
theorem inv_construct (timerId : UInt8) (h : Inv w) : Inv (w.construct a timerId) := by
  unfold World.construct
  cases ht : w.objects a with
  | some t => exact h
  | none =>
      refine ⟨h.begun, fun b u hu hin => ?_, fun id b hb => ?_, h.ticking⟩
      · rcases update_cases hu with ⟨rfl, hnew⟩ | ⟨hba, hold⟩
        · obtain rfl := Option.some.inj hnew
          exact absurd hin Bool.false_ne_true
        · exact h.ready b u hold hin
      · rcases h.live id b hb with ⟨u, hu, hrest⟩
        have hba : b ≠ a := fun hba =>
          Option.some_ne_none u (hu.symm.trans (hba ▸ ht))
        exact ⟨u, (Function.update_of_ne hba _ _).trans hu, hrest⟩

/-- Attaching a routine keeps the invariant. -/
theorem inv_attachInterrupt (callback : Option Nat) (h : Inv w) :
    Inv (w.attachInterrupt a callback) := by
  unfold World.attachInterrupt
  cases ht : w.objects a with
  | none => exact h
  | some t => exact inv_put w a t _ h ht rfl id id

/-- A tick keeps the invariant. -/
theorem inv_tick (id : Nat) (h : Inv w) : Inv (w.tick id) := by
  unfold World.tick
  split_ifs
  · exact ⟨h.begun, h.ready, h.live, h.ticking⟩
  · exact h

/-- Every event keeps the invariant. -/
theorem inv_step (e : Event) (h : Inv w) : Inv (step w e) := by
  cases e with
  | construct a timerId => exact inv_construct w a timerId h
  | beginTimer a d =>
      rcases beginTimer_cases w a d with hno | ⟨t, ht, hid, hyes⟩
      · simp only [step, hno]
        exact h
      · simp only [step, hyes]
        exact inv_register w a t h ht hid
  | attachInterrupt a callback => exact inv_attachInterrupt w a callback h
  | start a ms answers => exact inv_startWith w a ms _ answers h
  | startMicroseconds a us answers => exact inv_startWith w a _ us answers h
  | stop a stopped => exact inv_stop w a stopped h
  | destroy a stopped => exact inv_destroy w a stopped h
  | tick id => exact inv_tick w id h

/-! ### Ticks -/

/-- A tick goes to the object that last ran `begin`. -/
theorem routes_step (e : Event) (h : Inv w) : Routes w e ↔ BegunByOwner w e := by
  cases e with
  | tick id =>
      refine forall_congr' fun hon => ?_
      rcases h.ticking id hon with ⟨hid, hsome⟩
      rcases Option.isSome_iff_exists.1 hsome with ⟨a, ha⟩
      -- A timer that runs has an entry: some `begin` came before its start.
      have hthunk : w.hardwareTimerThunk id = some a := (if_neg (Nat.not_le_of_lt hid)).trans ha
      rw [hthunk, ← h.begun, ha]
      constructor
      · exact fun hall => (hall a rfl).2.symm
      · intro hown b hb
        obtain rfl := Option.some.inj hb
        rcases h.live id a hown.symm with ⟨t, ht, -⟩
        exact ⟨Option.isSome_iff_exists.2 ⟨t, ht⟩, hown.symm⟩
  | _ => exact Iff.rfl

end Steps

/-- In every run, the ticks go where they should if and only if at each tick the last
`begin` was that of the object which has the timer. -/
theorem ticks_routed_iff (es : List Event) :
    EventRun.Always step Routes {} es ↔ EventRun.Always step BegunByOwner {} es :=
  EventRun.always_iff_of_inv inv_step routes_step inv_init es

/-- Two objects share a timer, and the first of the two to run `begin` starts it. -/
def shared : List Event :=
  [.construct 1 4, .construct 2 4, .beginTimer 1 true, .beginTimer 2 true, .start 1 10 {}]

/-- The other one gets the tick. -/
theorem tick_misrouted : ¬ ∀ es, EventRun.Always step Routes {} es := by
  intro hall
  have hlaw := ((EventRun.always_append _ _ _ _ _).1 (hall (shared ++ [.tick 4]))).2.1
  have howner := (hlaw (by decide) 2 (by decide)).2
  exact absurd howner (by decide)

/-- The other one is gone, and the tick is delivered to where it was. -/
example : let w := EventRun.run step {} (shared ++ [.destroy 2 true])
    w.hardware 4 = true ∧ w.hardwareTimerThunk 4 = some 2 ∧ w.objects 2 = none := by
  decide

/-! ### Objects that leave each other alone -/

/-- A timer that runs was started by the object that last ran `begin` for it. -/
def Settled (w : World) : Prop :=
  ∀ id, w.hardware id = true → w.begunBy id = w.owner id

section Considerate

variable (w : World) (a : Nat)

/-- Registering over a free timer keeps the timers settled. -/
theorem settled_register (t : HardwareTimer) (h : Settled w)
    (hfree : w.hardware t.id = true → w.owner t.id = some a) : Settled (w.register a t) := by
  intro id hon
  by_cases hid : id = t.id
  · subst hid
    exact (Function.update_self _ _ _).trans (hfree hon).symm
  · exact (Function.update_of_ne hid _ _).trans (h id hon)

/-- Halting that succeeds keeps the timers settled. -/
theorem settled_halt (t : HardwareTimer) (h : Settled w) : Settled (w.halt a t true) := by
  intro id hon
  have hid : id ≠ t.id := fun hid => by
    subst hid
    exact Bool.false_ne_true ((Function.update_self _ _ _).symm.trans hon)
  -- The halt frees no other timer, even when the object was the owner of its own.
  have hown : (w.halt a t true).owner id = w.owner id := by
    by_cases ha : w.owner t.id = some a
    · exact (congrFun (if_pos ha) id).trans (Function.update_of_ne hid _ _)
    · exact congrFun (if_neg ha) id
  rw [hown]
  exact h id (hardware_halt w a t true id hon)

/-- `stop` that succeeds keeps the timers settled. -/
theorem settled_stop (h : Settled w) : Settled (w.stop a true) := by
  rcases stop_cases w a true with ⟨hno, -⟩ | ⟨t, -, hyes⟩
  · rw [hno]
    exact h
  · rw [hyes]
    exact settled_halt w a t h

/-- `stop` leaves who began a timer as it was. -/
theorem stop_begunBy (stopped : Bool) : (w.stop a stopped).begunBy = w.begunBy := by
  rcases stop_cases w a stopped with ⟨hno, -⟩ | ⟨t, -, hyes⟩
  · rw [hno]
  · rw [hyes]
    rfl

/-- Launching a timer that the object began keeps the timers settled. -/
theorem settled_launch (t : HardwareTimer) (ms : UInt32) (us : UInt64) (h : Settled w)
    (hbegun : w.begunBy t.id = some a) : Settled (w.launch a t ms us) := by
  intro id hon
  by_cases hid : id = t.id
  · subst hid
    exact hbegun.trans (Function.update_self t.id (some a) w.owner).symm
  · exact (h id ((Function.update_of_ne hid _ _).symm.trans hon)).trans
      (Function.update_of_ne hid _ _).symm

/-- Starting a timer of one's own keeps the timers settled. -/
theorem settled_startWith (ms : UInt32) (us : UInt64) (answers : Answers) (h : Settled w)
    (hstopped : answers.stopped = true)
    (hconsiderate : ∀ t ∈ w.objects a, (w.hardware t.id = true → w.owner t.id = some a) ∧
      (t.initialized = true → w.begunBy t.id = some a)) :
    Settled (w.startWith a ms us answers).1 := by
  -- behind `begin` the way is the same whether the channel was registered now or before
  have hrest : ∀ (w' : World) (t : HardwareTimer), Settled w' → w'.objects a = some t →
      w'.begunBy t.id = some a → w.ensureBegun a answers.driverInited = (w', true) →
        Settled (w.startWith a ms us answers).1 := by
    intro w' t hw' ht hbegun hready
    rw [startWith_eq w a w' ms us answers t hready ht, hstopped]
    split_ifs
    · exact settled_launch _ a _ ms us (settled_stop w' a hw')
        ((congrFun (stop_begunBy w' a true) _).trans hbegun)
    · exact settled_stop w' a hw'
  rcases ensureBegun_cases w a answers.driverInited with hno | ⟨t, ht, hinit, hyes⟩ |
    ⟨t, ht, -, -, hyes⟩
  · unfold World.startWith
    rw [hno]
    exact h
  · exact hrest w t h ht ((hconsiderate t ht).2 hinit) hyes
  · exact hrest _ { t with initialized := true }
      (settled_register w a t h (hconsiderate t ht).1) (Function.update_self _ _ _)
      (Function.update_self _ _ _) hyes

/-- A considerate event keeps the timers settled. -/
theorem settled_step (e : Event) (h : Settled w) (hconsiderate : Considerate w e) :
    Settled (step w e) := by
  -- only a registration, a launch and a stop touch what is settled
  cases e with
  | construct a timerId =>
      simp only [step, World.construct]
      split <;> exact h
  | beginTimer a d =>
      rcases beginTimer_cases w a d with hno | ⟨t, ht, -, hyes⟩
      · simp only [step, hno]
        exact h
      · simp only [step, hyes]
        exact settled_register w a t h (hconsiderate t ht)
  | attachInterrupt a callback =>
      simp only [step, World.attachInterrupt]
      split <;> exact h
  | start a ms answers =>
      exact settled_startWith w a ms _ answers h hconsiderate.1 hconsiderate.2
  | startMicroseconds a us answers =>
      exact settled_startWith w a _ us answers h hconsiderate.1 hconsiderate.2
  | stop a stopped =>
      obtain rfl : stopped = true := hconsiderate
      exact settled_stop w a h
  | destroy a stopped =>
      obtain rfl : stopped = true := hconsiderate
      exact settled_stop w a h
  | tick id =>
      simp only [step, World.tick]
      split <;> exact h

end Considerate

/-- Every tick goes where it should in a run of considerate objects. -/
theorem routes_of_considerate (es : List Event)
    (h : EventRun.Always step Considerate {} es) : EventRun.Always step Routes {} es := by
  refine (EventRun.always_iff_of_inv inv_step routes_step inv_init es).2 ?_
  refine EventRun.always_of_inv (I := Settled) ?_ settled_step ?_ h
  · intro w e hw _
    cases e with
    -- Only a tick asks for anything, and there the two records agree.
    | tick id => exact hw id
    | _ => exact True.intro
  · exact fun _ hno => absurd hno Bool.false_ne_true

end Core.Timer

end ArduinoBeken
