import ArduinoBeken.Library.Run

/-!
# Interrupts on a Pin

`attachInterrupt`, `detachInterrupt` and the interrupt routine of a pin. The hardware knows
one edge at a time, so `CHANGE` is made of the two: the edge is picked by the level of the
pin when the routine is attached, and each run of the routine turns it over, without a
look at the pin.

Calls are taken one call to the GPIO driver at a time, in a task or in the callback, and
the routine interrupts a task at any point and runs to its end. The level changes at any
time. Whether the flag is set by an edge while the interrupt is disabled is left open.

The edge is the right one at the end of each run if and only if the level has changed an
odd number of times since it was armed, and at the end of `attachInterrupt` if and only
if it has not changed, or back, since it was read (`armed_iff`).

## Main definitions

* `InterruptCallback`, `Pad`: The entry of the pin in the table, and the pin.
* `Doing`, `Routine`: Where a call is, and where the routine is.
* `World`, `Event`, `step`: The pin with a task and the routine.
* `KeepsArmed`: The law.
* `Careful`, `Apart`: The conditions.

## Theorems

* `doStep_ok`, `routineStep_ok`: What each step of a call and of the routine keeps.
* `inv_step`: What holds before each step.
* `armed_iff`: The law along a run.
-/

namespace ArduinoBeken

namespace Core.Gpio

/-- What an interrupt is asked for. -/
inductive PinStatus where
  | low
  | high
  | change
  | falling
  | rising
deriving DecidableEq, Repr

/-- `gpio_int_type_t`. -/
inductive IntType where
  | lowLevel
  | highLevel
  | risingEdge
  | fallingEdge
deriving DecidableEq, Repr

/-- The kind of interrupt of the hardware, which has none for a change. One begins as a falling
edge. -/
def arduinoPinStatusToGpioIntType : PinStatus → IntType
  | .low => .lowLevel
  | .high => .highLevel
  | .rising => .risingEdge
  | .falling => .fallingEdge
  | .change => .fallingEdge

/-- The edge that a pin of that level comes to next. -/
def edgeFor (level : Bool) : IntType :=
  if level then .fallingEdge else .risingEdge

/-- The callback of a pin, with or without a parameter. -/
structure Handler where
  callback : Option Nat := none
  callbackParam : Option Nat := none
  param : Nat := 0
  hasParam : Bool := false
deriving DecidableEq, Repr

/-- An entry of `s_interruptCallbacks`. -/
structure InterruptCallback extends Handler where
  mode : PinStatus := .low
  currentIntType : IntType := .lowLevel
deriving DecidableEq, Repr

/-- There is something to call. -/
def Handler.callable (h : Handler) : Bool :=
  (h.hasParam && h.callbackParam.isSome) || h.callback.isSome

/-! ### The pin -/

/-- What the GPIO driver knows of a pin. -/
structure Pad where
  level : Bool := false
  intType : IntType := .lowLevel
  enabled : Bool := false
  flag : Bool := false
  isr : Bool := false
deriving DecidableEq, Repr

/-- The level changes. An edge of the armed kind sets the flag, with the interrupt
disabled only if the hardware does so (`latched`). -/
def Pad.edge (p : Pad) (latched : Bool) : Pad :=
  { p with
    level := !p.level
    flag := p.flag || (decide (p.intType = edgeFor p.level) && (p.enabled || latched)) }

/-- The interrupt asks for its routine. -/
def Pad.pending (p : Pad) : Bool :=
  p.enabled && p.isr &&
    match p.intType with
    | .lowLevel => !p.level
    | .highLevel => p.level
    | _ => p.flag

/-! ### Calls and the routine -/

/-- The calls of a sketch, with what they store. -/
inductive Call where
  | attach (handler : Handler) (mode : PinStatus)
  | detach
deriving DecidableEq, Repr

/-- `attachInterrupt`. -/
def attachInterrupt (callback : Option Nat) (mode : PinStatus) : Call :=
  .attach { callback := callback } mode

/-- `attachInterruptParam`. -/
def attachInterruptParam (callback : Option Nat) (mode : PinStatus) (param : Nat) : Call :=
  .attach { callbackParam := callback, param := param, hasParam := true } mode

/-- An `attachInterrupt` under way, with its variable `intType`. The level it was picked
by is history. -/
structure Attach where
  handler : Handler
  mode : PinStatus
  intType : IntType := .fallingEdge
  sampled : Bool := false
deriving DecidableEq, Repr

/-- Where a call is: what it is about to do. -/
inductive Doing where
  | storeCallback (a : Attach)
  | configure (a : Attach)
  | pickType (a : Attach)
  | storeMode (a : Attach)
  | storeType (a : Attach)
  | disable (a : Attach)
  | clear (a : Attach)
  | setType (a : Attach)
  | registerIsr (a : Attach)
  | enable (a : Attach)
  | detachDisable
  | detachUnregister
  | detachForget
deriving DecidableEq, Repr

/-- The first step of a call. -/
def Call.start : Call → Doing
  | .attach handler mode => .storeCallback { handler, mode }
  | .detach => .detachDisable

/-- Where `gpio_isr_handler` is, with the calls that the callback makes. -/
inductive Routine where
  | clear (calls : List Call)
  | invoke (calls : List Call)
  | calling (d : Doing) (calls : List Call)
  | flip
  | disable
  | setType
  | enable
deriving DecidableEq, Repr

/-- The pin with the task that makes calls for it. Two fields are history: whether the
last call to return left the pin attached, and the level at which the interrupt was
last armed. -/
structure World where
  callback : InterruptCallback := {}
  pad : Pad := {}
  task : Option Doing := none
  isr : Option Routine := none
  attached : Bool := false
  armedAt : Bool := false
deriving DecidableEq, Repr

/-- One step of a call. `configureInterruptPinInput` may change the level, which it may
do at any time. -/
def doStep (w : World) : Doing → World × Option Doing
  | .storeCallback a =>
    ({ w with callback := { w.callback with toHandler := a.handler } }, some (.configure a))
  | .configure a => (w, some (.pickType a))
  | .pickType a =>
    -- The level is read here, and the edge it picks is armed four steps further on.
    (w, some (.storeMode { a with
      intType := if a.mode = .change then edgeFor w.pad.level
        else arduinoPinStatusToGpioIntType a.mode
      sampled := w.pad.level }))
  | .storeMode a =>
    ({ w with callback := { w.callback with mode := a.mode } }, some (.storeType a))
  | .storeType a =>
    ({ w with callback := { w.callback with currentIntType := a.intType } }, some (.disable a))
  | .disable a => ({ w with pad := { w.pad with enabled := false } }, some (.clear a))
  | .clear a => ({ w with pad := { w.pad with flag := false } }, some (.setType a))
  | .setType a => ({ w with pad := { w.pad with intType := a.intType } }, some (.registerIsr a))
  | .registerIsr a => ({ w with pad := { w.pad with isr := true } }, some (.enable a))
  | .enable _ =>
    ({ w with pad := { w.pad with enabled := true }, attached := true, armedAt := w.pad.level },
      none)
  | .detachDisable =>
    ({ w with pad := { w.pad with enabled := false }, attached := false }, some .detachUnregister)
  | .detachUnregister => ({ w with pad := { w.pad with isr := false } }, some .detachForget)
  | .detachForget => ({ w with callback := { w.callback with toHandler := {} } }, none)

/-- What comes behind a call in the callback. -/
def nextCall : List Call → Routine
  | [] => .flip
  | c :: cs => .calling c.start cs

/-- One step of `gpio_isr_handler`. -/
def routineStep (w : World) : Routine → World × Option Routine
  | .clear calls => ({ w with pad := { w.pad with flag := false } }, some (.invoke calls))
  -- Without a callback nothing is called, and the edge is turned over all the same.
  | .invoke calls => (w, some (nextCall (if w.callback.callable then calls else [])))
  | .calling d calls =>
    let r := doStep w d
    (r.1, some (match r.2 with
      | some d' => .calling d' calls
      | none => nextCall calls))
  | .flip =>
    if w.callback.mode = .change then
      ({ w with callback := { w.callback with
        currentIntType :=
          if w.callback.currentIntType = .risingEdge then .fallingEdge else .risingEdge } },
        some .disable)
    else (w, none)
  | .disable => ({ w with pad := { w.pad with enabled := false } }, some .setType)
  | .setType =>
    ({ w with pad := { w.pad with intType := w.callback.currentIntType } }, some .enable)
  | .enable => ({ w with pad := { w.pad with enabled := true }, armedAt := w.pad.level }, none)

/-- The level changes, the task begins a call or goes on with it, the routine is called,
with a callback that makes those calls, or goes on. -/
inductive Event where
  | edge (latched : Bool)
  | call (c : Call)
  | task
  | fire (calls : List Call)
  | isr
deriving DecidableEq, Repr

/-- One step of the task, of the routine or of the hardware. An edge may come at any time, and
the routine goes before the task. -/
def step (w : World) : Event → World
  | .edge latched => { w with pad := w.pad.edge latched }
  | .call c => if w.isr = none ∧ w.task = none then { w with task := some c.start } else w
  | .task =>
    match w.isr, w.task with
    | none, some d =>
      let r := doStep w d
      { r.1 with task := r.2 }
    | _, _ => w
  | .fire calls =>
    if w.isr = none ∧ w.pad.pending = true then { w with isr := some (.clear calls) } else w
  | .isr =>
    match w.isr with
    | some r =>
      let r := routineStep w r
      { r.1 with isr := r.2 }
    | none => w

/-! ### The law -/

/-- The next change of the level is the edge that is armed. -/
def Armed (w : World) : Prop :=
  w.pad.enabled = true ∧ w.pad.intType = edgeFor w.pad.level

instance (w : World) : Decidable (Armed w) :=
  inferInstanceAs (Decidable (_ ∧ _))

/-- The `attachInterrupt` that returns with a step. -/
def returning (w : World) : Event → Option Attach
  | .task =>
    match w.isr, w.task with
    | none, some (.enable a) => some a
    | _, _ => none
  | .isr =>
    match w.isr with
    | some (.calling (.enable a) _) => some a
    | _ => none
  | _ => none

/-- The routine comes to its end with a step. -/
def EndsRun (w : World) (e : Event) : Prop :=
  e = .isr ∧ w.isr ≠ none ∧ (step w e).isr = none

instance (w : World) (e : Event) : Decidable (EndsRun w e) :=
  inferInstanceAs (Decidable (_ ∧ _))

/-- A pin in `CHANGE` mode is armed for its next change when `attachInterrupt` returns and
when the routine ends, and one that is detached has its interrupt disabled. -/
structure KeepsArmed (w : World) (e : Event) : Prop where
  returned : ∀ a ∈ returning w e, a.mode = .change → Armed (step w e)
  ended : EndsRun w e → (step w e).callback.mode = .change → (step w e).attached = true →
    Armed (step w e)
  detached : (step w e).attached = false → (step w e).pad.enabled = false

/-! ### The conditions -/

/-- When `attachInterrupt` returns the level is the one it read, and when the routine
ends the level is not the one it was armed at, and the callback has not left the pin
detached. -/
structure Careful (w : World) (e : Event) : Prop where
  returned : ∀ a ∈ returning w e, a.mode = .change → w.pad.level = a.sampled
  ended : e = .isr → w.isr = some .enable → w.attached = true ∧ w.pad.level ≠ w.armedAt

/-- An `attachInterrupt` that has stored the mode and not disabled the interrupt yet. -/
def Doing.storing : Doing → Option Attach
  | .storeType a | .disable a => some a
  | _ => none

/-- The routine does not interrupt an `attachInterrupt` there, unless the mode is another
one and the callback makes no call. -/
def Apart (w : World) : Event → Prop
  | .fire calls => w.pad.pending = true →
    ∀ d ∈ w.task, ∀ a ∈ d.storing, a.mode ≠ .change ∧ calls = []
  | _ => True

instance (w : World) (e : Event) : Decidable (Careful w e) :=
  decidable_of_iff
    ((∀ a ∈ returning w e, a.mode = .change → w.pad.level = a.sampled) ∧
      (e = .isr → w.isr = some .enable → w.attached = true ∧ w.pad.level ≠ w.armedAt))
    ⟨fun h => ⟨h.1, h.2⟩, fun h => ⟨h.returned, h.ended⟩⟩

instance (w : World) (e : Event) : Decidable (Apart w e) := by
  unfold Apart
  split
  · exact inferInstanceAs (Decidable (_ → ∀ d ∈ _, ∀ a ∈ _, _ ∧ _))
  · exact isTrue True.intro

/-! ### What holds before each step -/

/-- The type that was picked for `CHANGE` is that for the level that was read. -/
def Attach.Picked (a : Attach) : Prop :=
  a.mode = .change → a.intType = edgeFor a.sampled

/-- The entry of the pin is that of the `attachInterrupt`. -/
def Stored (w : World) (a : Attach) : Prop :=
  w.callback.mode = a.mode ∧ w.callback.currentIntType = a.intType

/-- The entry of an attached pin in `CHANGE` mode has the edge it was armed for. -/
def Settled (w : World) : Prop :=
  w.callback.mode = .change → w.attached = true → w.callback.currentIntType = edgeFor w.armedAt

/-- What a call finds. -/
def Doing.Ok (w : World) : Doing → Prop
  | .storeCallback _ | .configure _ | .pickType _ | .detachDisable => Settled w
  | .storeMode a => Settled w ∧ a.Picked
  | .storeType a => w.callback.mode = a.mode ∧ a.Picked
  | .disable a => Stored w a ∧ a.Picked
  | .clear a | .setType a => Stored w a ∧ a.Picked ∧ w.pad.enabled = false
  | .registerIsr a | .enable a =>
    Stored w a ∧ a.Picked ∧ w.pad.enabled = false ∧ w.pad.intType = a.intType
  | .detachUnregister | .detachForget => w.attached = false ∧ w.pad.enabled = false

/-- What the routine finds. -/
def Routine.Ok (w : World) : Routine → Prop
  | .clear _ | .invoke _ | .flip => Settled w
  | .calling d _ => d.Ok w
  | .disable | .setType =>
    w.callback.mode = .change ∧
      (w.attached = true → w.callback.currentIntType = edgeFor (!w.armedAt))
  | .enable =>
    w.callback.mode = .change ∧
      (w.attached = true → w.callback.currentIntType = edgeFor (!w.armedAt)) ∧
        w.pad.intType = w.callback.currentIntType

/-- The routine makes no call and changes nothing if the mode is another one. -/
def Routine.Quiet : Routine → Prop
  | .clear calls | .invoke calls => calls = []
  | .flip => True
  | _ => False

/-- What an interrupted call relies on the routine for. It is not interrupted with the
interrupt disabled. -/
def Doing.Paused (w : World) (r : Routine) : Doing → Prop
  | .storeCallback _ | .configure _ | .pickType _ | .detachDisable => True
  | .storeMode a => a.Picked
  | .storeType a => w.callback.mode = a.mode ∧ a.Picked ∧ a.mode ≠ .change ∧ r.Quiet
  | .disable a => Stored w a ∧ a.Picked ∧ a.mode ≠ .change ∧ r.Quiet
  | _ => False

/-- The invariant, by where the task and the routine are. -/
structure Inv (w : World) : Prop where
  off : w.attached = false → w.pad.enabled = false
  running : ∀ r ∈ w.isr, r.Ok w ∧ ∀ d ∈ w.task, d.Paused w r
  idle : w.isr = none → (w.task = none → Settled w) ∧ ∀ d ∈ w.task, d.Ok w

/-! ### Steps -/

theorem edgeFor_not (level : Bool) :
    (if edgeFor level = .risingEdge then IntType.fallingEdge else .risingEdge) =
      edgeFor (!level) := by
  cases level <;> rfl

theorem edgeFor_inj {a b : Bool} (h : edgeFor a = edgeFor b) : a = b := by
  cases a <;> cases b <;> first | rfl | exact absurd h (by decide)

theorem ok_start (w : World) (c : Call) (h : Settled w) : c.start.Ok w := by
  cases c <;> exact h

/-- A step that goes on. -/
theorem goesOn {α : Type*} {P : α → Prop} {Q : Prop} {a : α} (h : P a) :
    (∀ b ∈ some a, P b) ∧ (some a = none → Q) :=
  ⟨fun _ hb => Option.some.inj hb ▸ h, fun hno => nomatch hno⟩

/-- A step that is the last one. -/
theorem comesToEnd {α : Type*} {P : α → Prop} {Q : Prop} (h : Q) :
    (∀ b ∈ (none : Option α), P b) ∧ ((none : Option α) = none → Q) :=
  ⟨fun _ hno => absurd hno (Option.some_ne_none _).symm, fun _ => h⟩

/-- Behind a step of a call, what the next one finds. -/
theorem doStep_ok (w : World) (d : Doing) (h : d.Ok w)
    (hlevel : ∀ a, d = .enable a → a.mode = .change → w.pad.level = a.sampled) :
    (∀ d' ∈ (doStep w d).2, d'.Ok (doStep w d).1) ∧
      ((doStep w d).2 = none → Settled (doStep w d).1) := by
  cases d with
  | storeCallback a => exact goesOn h
  | configure a => exact goesOn h
  | pickType a => exact goesOn ⟨h, fun hmode => if_pos hmode⟩
  | storeMode a => exact goesOn ⟨rfl, h.2⟩
  | storeType a => exact goesOn ⟨⟨h.1, rfl⟩, h.2⟩
  | disable a => exact goesOn ⟨h.1, h.2, rfl⟩
  | clear a => exact goesOn h
  | setType a => exact goesOn ⟨h.1, h.2.1, h.2.2, rfl⟩
  | registerIsr a => exact goesOn h
  | enable a =>
      refine comesToEnd fun hmode _ => ?_
      -- The armed type is that of the level that was read, and the level is the same still.
      rcases h with ⟨hstored, hpicked, -, -⟩
      have hchange : a.mode = .change := hstored.1 ▸ hmode
      have hsame := hlevel a rfl hchange
      exact hstored.2.trans ((hpicked hchange).trans (congrArg edgeFor hsame.symm))
  | detachDisable => exact goesOn ⟨rfl, rfl⟩
  | detachUnregister => exact goesOn h
  | detachForget =>
      exact comesToEnd fun _ hon => absurd (h.1.symm.trans hon) Bool.false_ne_true

/-- A call enables the interrupt of the pin that it attaches. -/
theorem doStep_off (w : World) (d : Doing) (h : w.attached = false → w.pad.enabled = false) :
    (doStep w d).1.attached = false → (doStep w d).1.pad.enabled = false := by
  cases d with
  | enable a => exact fun hno => nomatch hno
  | disable a => exact fun _ => rfl
  | detachDisable => exact fun _ => rfl
  | _ => exact h

theorem ok_nextCall (w : World) (calls : List Call) (h : Settled w) : (nextCall calls).Ok w := by
  cases calls with
  | nil => exact h
  | cons c cs => exact ok_start w c h

/-- Behind a step of the routine, what the next one finds. -/
theorem routineStep_ok (w : World) (r : Routine) (h : r.Ok w)
    (hlevel : ∀ a calls, r = .calling (.enable a) calls → a.mode = .change →
      w.pad.level = a.sampled)
    (hend : r = .enable → w.attached = true ∧ w.pad.level ≠ w.armedAt) :
    (∀ r' ∈ (routineStep w r).2, r'.Ok (routineStep w r).1) ∧
      ((routineStep w r).2 = none → Settled (routineStep w r).1) := by
  cases r with
  | clear calls => exact goesOn h
  | invoke calls => exact goesOn (ok_nextCall w _ h)
  | calling d calls =>
      rcases doStep_ok w d h (fun a hd => hlevel a calls (hd ▸ rfl)) with ⟨hgoes, hends⟩
      refine goesOn ?_
      cases hd : (doStep w d).2 with
      | some d' => exact hgoes d' hd
      | none => exact ok_nextCall _ calls (hends hd)
  | flip =>
      unfold routineStep
      by_cases hmode : w.callback.mode = .change
      · simp only [if_pos hmode]
        refine goesOn ⟨hmode, fun hon => ?_⟩
        -- Turned over without a look at the pin.
        have htype := h hmode hon
        simp only [htype]
        exact edgeFor_not w.armedAt
      · rw [if_neg hmode]
        exact comesToEnd (show Settled w from h)
  | disable => exact goesOn h
  | setType => exact goesOn ⟨h.1, h.2, rfl⟩
  | enable =>
      refine comesToEnd fun _ hon => ?_
      -- An odd number of changes since the arming, so the other edge is the right one.
      have hother : w.pad.level = !w.armedAt := Bool.eq_not.2 (hend rfl).2
      exact (h.2.1 hon).trans (congrArg edgeFor hother.symm)

/-- A routine that makes no call leaves the entry of another mode alone. -/
theorem quiet_step (w : World) (r : Routine) (hquiet : r.Quiet)
    (hmode : w.callback.mode ≠ .change) :
    (routineStep w r).1.callback = w.callback ∧ ∀ r' ∈ (routineStep w r).2, r'.Quiet := by
  cases r with
  | clear calls =>
      have hnext : Routine.Quiet (.invoke calls) := hquiet
      exact ⟨rfl, (goesOn (Q := False) hnext).1⟩
  | invoke calls =>
      have hnone : calls = [] := hquiet
      have hnext : Routine.Quiet (nextCall (if w.callback.callable then calls else [])) := by
        rw [hnone, ite_self]
        exact True.intro
      exact ⟨rfl, (goesOn (Q := False) hnext).1⟩
  | flip =>
      unfold routineStep
      rw [if_neg hmode]
      exact ⟨rfl, (comesToEnd True.intro).1⟩
  -- No other part of the routine is quiet.
  | calling d calls => exact absurd hquiet id
  | disable => exact absurd hquiet id
  | setType => exact absurd hquiet id
  | enable => exact absurd hquiet id

/-- An interrupted call finds what it relies on, up to the end of the routine. -/
theorem paused_step (w : World) (r : Routine) (d : Doing) (h : d.Paused w r) :
    (∀ r' ∈ (routineStep w r).2, d.Paused (routineStep w r).1 r') ∧
      (Settled (routineStep w r).1 → d.Ok (routineStep w r).1) := by
  -- by the place the task was stopped at; up to the stored mode nothing of the routine matters
  cases d with
  | storeCallback a => exact ⟨fun _ _ => True.intro, id⟩
  | configure a => exact ⟨fun _ _ => True.intro, id⟩
  | pickType a => exact ⟨fun _ _ => True.intro, id⟩
  | detachDisable => exact ⟨fun _ _ => True.intro, id⟩
  | storeMode a => exact ⟨fun _ _ => h, fun hset => ⟨hset, h⟩⟩
  -- from the stored type on the routine may run only where it changes neither mode nor type
  | storeType a =>
      rcases h with ⟨hmode, hpicked, hother, hquiet⟩
      rcases quiet_step w r hquiet (hmode ▸ hother) with ⟨hsame, hstill⟩
      exact ⟨fun r' hr => ⟨hsame ▸ hmode, hpicked, hother, hstill r' hr⟩,
        fun _ => ⟨hsame ▸ hmode, hpicked⟩⟩
  | disable a =>
      rcases h with ⟨hstored, hpicked, hother, hquiet⟩
      rcases quiet_step w r hquiet (hstored.1 ▸ hother) with ⟨hsame, hstill⟩
      have hstored' : Stored (routineStep w r).1 a :=
        ⟨hsame ▸ hstored.1, hsame ▸ hstored.2⟩
      exact ⟨fun r' hr => ⟨hstored', hpicked, hother, hstill r' hr⟩, fun _ => ⟨hstored', hpicked⟩⟩
  | _ => exact absurd h id

/-- The routine enables the interrupt of an attached pin only. -/
theorem routineStep_off (w : World) (r : Routine) (h : w.attached = false → w.pad.enabled = false)
    (hend : r = .enable → w.attached = true) :
    (routineStep w r).1.attached = false → (routineStep w r).1.pad.enabled = false := by
  cases r with
  | calling d calls => exact doStep_off w d h
  | flip =>
      simp only [routineStep]
      split <;> exact h
  | disable => exact fun _ => rfl
  | enable => exact fun hoff => absurd (hoff.symm.trans (hend rfl)) Bool.false_ne_true
  | _ => exact h

/-! ### The invariant -/

/-- Steps of calls and of the routine leave the other alone. -/
theorem doStep_frame (w : World) (d : Doing) :
    (doStep w d).1.isr = w.isr ∧ (doStep w d).1.task = w.task := by
  cases d <;> exact ⟨rfl, rfl⟩

theorem routineStep_frame (w : World) (r : Routine) : (routineStep w r).1.task = w.task := by
  cases r with
  | calling d calls => exact (doStep_frame w d).2
  | flip =>
      simp only [routineStep]
      split <;> rfl
  | _ => rfl

/-- A routine that is called finds what it needs, and so does the call it interrupts. -/
theorem paused_fire (w : World) (d : Doing) (calls : List Call) (h : d.Ok w)
    (henabled : w.pad.enabled = true)
    (hapart : ∀ a ∈ d.storing, a.mode ≠ .change ∧ calls = []) :
    Settled w ∧ d.Paused w (.clear calls) := by
  have hoff : w.pad.enabled = false → False :=
    fun hno => absurd (hno.symm.trans henabled) Bool.false_ne_true
  cases d with
  | storeCallback a => exact ⟨h, True.intro⟩
  | configure a => exact ⟨h, True.intro⟩
  | pickType a => exact ⟨h, True.intro⟩
  | detachDisable => exact ⟨h, True.intro⟩
  | storeMode a => exact ⟨h.1, h.2⟩
  | storeType a =>
      rcases hapart a rfl with ⟨hother, hnone⟩
      exact ⟨fun hmode => absurd (h.1.symm.trans hmode) hother, h.1, h.2, hother, hnone⟩
  | disable a =>
      rcases hapart a rfl with ⟨hother, hnone⟩
      exact ⟨fun hmode => absurd (h.1.1.symm.trans hmode) hother, h.1, h.2, hother, hnone⟩
  -- From here to the end of an attachment the interrupt is disabled.
  | clear a => exact (hoff h.2.2).elim
  | setType a => exact (hoff h.2.2).elim
  | registerIsr a => exact (hoff h.2.2.1).elim
  | enable a => exact (hoff h.2.2.1).elim
  | detachUnregister => exact (hoff h.2).elim
  | detachForget => exact (hoff h.2).elim

/-- The entry, the pin and the history are what a call and the routine rely on. -/
theorem ok_aside (w : World) (d : Doing) (task : Option Doing) (isr : Option Routine)
    (h : d.Ok w) : d.Ok { w with task, isr } := by
  cases d <;> exact h

theorem paused_aside (w : World) (r : Routine) (d : Doing) (isr : Option Routine)
    (h : d.Paused w r) : d.Paused { w with isr } r := by
  cases d <;> exact h

theorem routine_ok_aside (w : World) (r : Routine) (isr : Option Routine) (h : r.Ok w) :
    r.Ok { w with isr } := by
  cases r with
  | calling d calls => exact ok_aside w d w.task isr h
  | _ => exact h

theorem ok_edge (w : World) (d : Doing) (latched : Bool) (h : d.Ok w) :
    d.Ok { w with pad := w.pad.edge latched } := by
  cases d <;> exact h

theorem inv_edge (w : World) (latched : Bool) (hw : Inv w) : Inv (step w (.edge latched)) := by
  refine ⟨hw.off, ?_, ?_⟩
  · intro r hr
    rcases hw.running r hr with ⟨hok, hpaused⟩
    refine ⟨?_, ?_⟩
    · cases r with
      | calling d calls => exact ok_edge w d latched hok
      | _ => exact hok
    · intro d hd
      have hp := hpaused d hd
      cases d <;> exact hp
  · intro hnone
    exact ⟨(hw.idle hnone).1, fun d hd => ok_edge w d latched ((hw.idle hnone).2 d hd)⟩

theorem inv_call (w : World) (c : Call) (hw : Inv w) : Inv (step w (.call c)) := by
  simp only [step]
  split
  next hidle =>
    refine ⟨hw.off, fun r hr => absurd (hidle.1.symm.trans hr) (Option.some_ne_none r).symm, ?_⟩
    intro _
    have hset := (hw.idle hidle.1).1 hidle.2
    refine ⟨fun hno => absurd hno (Option.some_ne_none _), fun d hd => ?_⟩
    rw [← Option.some.inj hd]
    exact ok_start _ c hset
  next => exact hw

theorem inv_task (w : World) (hw : Inv w) (hcareful : Careful w .task) : Inv (step w .task) := by
  cases hisr : w.isr with
  | some r =>
      simp only [step, hisr]
      exact hw
  | none =>
      cases htask : w.task with
      | none =>
          simp only [step, hisr, htask]
          exact hw
      | some d =>
          have hlevel : ∀ a, d = .enable a → a.mode = .change → w.pad.level = a.sampled := by
            rintro a rfl
            exact hcareful.returned a (by simp only [returning, hisr, htask]; rfl)
          -- Only the last step of an attachment looks at the level.
          rcases doStep_ok w d ((hw.idle hisr).2 d htask) hlevel with ⟨hgoes, hends⟩
          have hframe := (doStep_frame w d).1
          simp only [step, hisr, htask]
          refine ⟨doStep_off w d hw.off, ?_, ?_⟩
          · intro r hr
            exact absurd ((hframe.trans hisr).symm.trans hr) (Option.some_ne_none r).symm
          · intro _
            exact ⟨hends, fun d' hd' => ok_aside _ d' _ _ (hgoes d' hd')⟩

theorem inv_fire (w : World) (calls : List Call) (hw : Inv w) (hapart : Apart w (.fire calls)) :
    Inv (step w (.fire calls)) := by
  simp only [step]
  split
  next hfire =>
    have henabled : w.pad.enabled = true := by
      have hpending := hfire.2
      simp only [Pad.pending, Bool.and_eq_true] at hpending
      exact hpending.1.1
    refine ⟨hw.off, ?_, fun hno => absurd hno (Option.some_ne_none _)⟩
    intro r hr
    rw [← Option.some.inj hr]
    -- A call of the task may be in progress, but not behind its disabling.
    have hpaused : ∀ d ∈ w.task, Settled w ∧ d.Paused w (.clear calls) := fun d hd =>
      paused_fire w d calls ((hw.idle hfire.1).2 d hd) henabled (hapart hfire.2 d hd)
    refine ⟨?_, fun d hd => paused_aside w _ d _ (hpaused d hd).2⟩
    cases htask : w.task with
    | none => exact (hw.idle hfire.1).1 htask
    | some d => exact (hpaused d htask).1
  next => exact hw

theorem inv_isr (w : World) (hw : Inv w) (hcareful : Careful w .isr) : Inv (step w .isr) := by
  cases hisr : w.isr with
  | none =>
      simp only [step, hisr]
      exact hw
  | some r =>
      rcases hw.running r hisr with ⟨hok, hpaused⟩
      have hlevel : ∀ a calls, r = .calling (.enable a) calls → a.mode = .change →
          w.pad.level = a.sampled := by
        rintro a calls rfl
        exact hcareful.returned a (by simp only [returning, hisr]; rfl)
      have hend : r = .enable → w.attached = true ∧ w.pad.level ≠ w.armedAt := by
        rintro rfl
        exact hcareful.ended rfl hisr
      rcases routineStep_ok w r hok hlevel hend with ⟨hgoes, hends⟩
      have hframe := routineStep_frame w r
      simp only [step, hisr]
      refine ⟨routineStep_off w r hw.off (fun hr => (hend hr).1), ?_, ?_⟩
      · intro r' hr'
        refine ⟨routine_ok_aside _ r' _ (hgoes r' hr'), fun d hd => ?_⟩
        exact paused_aside _ r' d _ ((paused_step w r d (hpaused d (hframe ▸ hd))).1 r' hr')
      · intro hnone
        -- The call that was interrupted goes on with what it relied on.
        have hset := hends hnone
        refine ⟨fun _ => hset, fun d hd => ?_⟩
        exact ok_aside _ d _ _ ((paused_step w r d (hpaused d (hframe ▸ hd))).2 hset)

/-- Careful steps keep what each step needs. -/
theorem inv_step (w : World) (e : Event) (hw : Inv w) (hapart : Apart w e)
    (hcareful : Careful w e) : Inv (step w e) := by
  cases e with
  | edge latched => exact inv_edge w latched hw
  | call c => exact inv_call w c hw
  | task => exact inv_task w hw hcareful
  | fire calls => exact inv_fire w calls hw hapart
  | isr => exact inv_isr w hw hcareful

/-! ### Runs -/

/-- Where an `attachInterrupt` returns from. -/
theorem returning_cases (w : World) (e : Event) (a : Attach) (hw : Inv w)
    (h : a ∈ returning w e) :
    Doing.Ok w (.enable a) ∧ (step w e).pad = { w.pad with enabled := true } := by
  cases e with
  | task =>
      cases hisr : w.isr with
      | some r =>
          simp only [returning, hisr] at h
          exact absurd h (Option.some_ne_none a).symm
      | none =>
          cases htask : w.task with
          | none =>
              simp only [returning, hisr, htask] at h
              exact absurd h (Option.some_ne_none a).symm
          | some d =>
              have hok := (hw.idle hisr).2 d htask
              -- of all that the task may be doing only `enable` returns an attach
              cases d with
              | enable b =>
                  simp only [returning, hisr, htask] at h
                  rw [← Option.some.inj h]
                  refine ⟨hok, ?_⟩
                  simp only [step, hisr, htask]
                  rfl
              | _ =>
                  simp only [returning, hisr, htask] at h
                  exact absurd h (Option.some_ne_none a).symm
  | isr =>
      cases hisr : w.isr with
      | none =>
          simp only [returning, hisr] at h
          exact absurd h (Option.some_ne_none a).symm
      | some r =>
          have hok := (hw.running r hisr).1
          cases r with
          | calling d calls =>
              -- of the calls of the handler too
              cases d with
              | enable b =>
                  simp only [returning, hisr] at h
                  rw [← Option.some.inj h]
                  refine ⟨hok, ?_⟩
                  simp only [step, hisr]
                  rfl
              | _ =>
                  simp only [returning, hisr] at h
                  exact absurd h (Option.some_ne_none a).symm
          | _ =>
              simp only [returning, hisr] at h
              exact absurd h (Option.some_ne_none a).symm
  | _ => exact absurd h (Option.some_ne_none a).symm

theorem returned_iff (w : World) (e : Event) (a : Attach) (hw : Inv w) (h : a ∈ returning w e)
    (hmode : a.mode = .change) : Armed (step w e) ↔ w.pad.level = a.sampled := by
  rcases returning_cases w e a hw h with ⟨⟨-, hpicked, -, htype⟩, hpad⟩
  rw [Armed, hpad, htype, hpicked hmode]
  refine ⟨fun harmed => (edgeFor_inj harmed.2).symm, fun hsame => ⟨rfl, ?_⟩⟩
  exact congrArg edgeFor hsame.symm

/-- The routine ends with the interrupt enabled again, or in another mode. -/
theorem endsRun_cases (w : World) (e : Event) (h : EndsRun w e) :
    e = .isr ∧ (w.isr = some .enable ∨ (step w e).callback.mode ≠ .change) := by
  rcases h with ⟨rfl, hsome, hends⟩
  refine ⟨rfl, ?_⟩
  cases hisr : w.isr with
  | none => exact absurd hisr hsome
  | some r =>
      simp only [step, hisr] at hends ⊢
      cases r with
      | enable => exact Or.inl rfl
      | flip =>
          right
          by_cases hmode : w.callback.mode = .change
          · simp only [routineStep, if_pos hmode] at hends
            exact absurd hends (Option.some_ne_none _)
          · simp only [routineStep, if_neg hmode]
            exact hmode
      | _ => exact absurd hends (Option.some_ne_none _)

/-- The routine arms the edge of the level that is not the one it was armed at. -/
theorem ended_iff (w : World) (hw : Inv w) (hisr : w.isr = some .enable)
    (hon : w.attached = true) : Armed (step w .isr) ↔ w.pad.level ≠ w.armedAt := by
  rcases (hw.running .enable hisr).1 with ⟨-, hcurrent, htype⟩
  have hpad : (step w .isr).pad = { w.pad with enabled := true } := by
    simp only [step, hisr]
    rfl
  rw [Armed, hpad, htype, hcurrent hon]
  refine ⟨fun harmed hsame => ?_, fun hother => ⟨rfl, ?_⟩⟩
  · have hnot := edgeFor_inj harmed.2
    rw [hsame] at hnot
    exact (Bool.not_eq_self _).1 hnot
  · exact congrArg edgeFor (Bool.eq_not.2 hother).symm

theorem keepsArmed_iff (w : World) (e : Event) (hw : Inv w) (hapart : Apart w e) :
    KeepsArmed w e ↔ Careful w e := by
  refine ⟨fun hlaw => ⟨?_, ?_⟩, fun hcareful => ⟨?_, ?_, ?_⟩⟩
  -- the two parts of the law are read at the return of an attachment and at the end of the routine
  · intro a ha hmode
    exact (returned_iff w e a hw ha hmode).1 (hlaw.returned a ha hmode)
  · rintro rfl hisr
    have hmode := (hw.running .enable hisr).1.1
    have hstep : step w .isr =
        { w with pad := { w.pad with enabled := true }, armedAt := w.pad.level, isr := none } := by
      simp only [step, hisr]
      rfl
    -- an attachment that is gone would leave the pad enabled
    have hon : w.attached = true := by
      by_contra hoff
      have hdetached := hlaw.detached
      rw [hstep] at hdetached
      exact absurd (hdetached (Bool.eq_false_iff.2 hoff)) Bool.false_ne_true.symm
    have hends : EndsRun w .isr := by
      refine ⟨rfl, fun hno => absurd (hisr.symm.trans hno) (Option.some_ne_none _), ?_⟩
      rw [hstep]
    refine ⟨hon, (ended_iff w hw hisr hon).1 (hlaw.ended hends ?_ ?_)⟩
    · rw [hstep]
      exact hmode
    · rw [hstep]
      exact hon
  · intro a ha hmode
    exact (returned_iff w e a hw ha hmode).2 (hcareful.returned a ha hmode)
  -- the routine ends at its last step, or because its callback has disabled the pad
  · intro hends hmode _
    rcases endsRun_cases w e hends with ⟨rfl, hisr | hother⟩
    · rcases hcareful.ended rfl hisr with ⟨hon, hlevel⟩
      exact (ended_iff w hw hisr hon).2 hlevel
    · exact absurd hmode hother
  · exact (inv_step w e hw hapart hcareful).off

/-- In every run in which the routine does not come between the two parts of an
`attachInterrupt`, the armed edge is the right one if and only if the level has changed as
it should. -/
theorem armed_iff (level : Bool) (es : List Event)
    (hapart : EventRun.Always step Apart { pad := { level } } es) :
    EventRun.Always step KeepsArmed { pad := { level } } es ↔
      EventRun.Always step Careful { pad := { level } } es := by
  have hstart : Inv { pad := { level } } := by
    refine ⟨fun _ => rfl, fun r hr => absurd hr (Option.some_ne_none r).symm, fun _ => ⟨?_, ?_⟩⟩
    · exact fun _ _ hon => absurd hon Bool.false_ne_true
    · exact fun d hd => absurd hd (Option.some_ne_none d).symm
  have hboth := EventRun.always_iff_of_good
    (P := fun w e => Apart w e ∧ Careful w e) (Q := fun w e => Apart w e ∧ KeepsArmed w e)
    (fun w e hw h => inv_step w e hw h.1 h.2)
    (fun w e hw => and_congr_right fun ha => (keepsArmed_iff w e hw ha).symm) hstart es
  rw [EventRun.always_and, EventRun.always_and] at hboth
  exact ⟨fun hlaw => (hboth.2 ⟨hapart, hlaw⟩).2, fun hcareful => (hboth.1 ⟨hapart, hcareful⟩).2⟩

/-- A pin is attached, and changes with time for the routine after each change. -/
def twoPulses : List Event :=
  [.call (attachInterrupt (some 1) .change)] ++ List.replicate 10 .task ++
    [.edge false, .fire []] ++ List.replicate 6 .isr ++
    [.edge false, .fire [.attach { callback := some 2 } .rising]] ++ List.replicate 13 .isr

theorem armed_iff_twoPulses :
    EventRun.Always step KeepsArmed {} twoPulses ↔ EventRun.Always step Careful {} twoPulses :=
  armed_iff false twoPulses (by decide +kernel)

/-- A pulse that is over before the routine is. -/
def shortPulse : List Event :=
  [.call (attachInterrupt (some 1) .change)] ++ List.replicate 10 .task ++
    [.edge false, .fire [], .isr, .edge false] ++ List.replicate 4 .isr

/-- The pin is low then, and armed for falling. -/
theorem edge_missed : ¬ ∀ es, EventRun.Always step KeepsArmed {} es := by
  intro hall
  have hlaw := ((EventRun.always_append _ _ _ _ _).1 (hall (shortPulse ++ [.isr]))).2.1
  have hseen : (EventRun.run step {} (shortPulse ++ [.isr])).callback.mode = .change ∧
      (EventRun.run step {} (shortPulse ++ [.isr])).attached = true ∧
      EndsRun (EventRun.run step {} shortPulse) .isr ∧
      ¬Armed (EventRun.run step {} (shortPulse ++ [.isr])) := by
    decide +kernel
  rw [EventRun.run_append] at hseen
  exact hseen.2.2.2 (hlaw.ended hseen.2.2.1 hseen.1 hseen.2.1)

end Core.Gpio

end ArduinoBeken
