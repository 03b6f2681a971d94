import ArduinoBeken.Library.Run

/-!
# The Ticker

A `Ticker` has one RTOS timer, which is periodic. `timerThunk` makes a one-shot of it: it
calls the callback, and detaches when the Ticker is not repeating. The callback may arm the
Ticker anew, and `m_repeat` is read behind it.

Calls between the beginning and the end of a callback are those that it makes. Each of the
four commands to the RTOS may fail, and the code does not look. A timer whose handle is
written over while it exists is lost: nothing stops it any more, and if it was running it
goes on to call `timerThunk`.

A Ticker does what was asked of it if and only if no callback comes to its end with the
Ticker armed anew for once, no one-shot without a callback expires, and the RTOS takes the
commands (`keepsRequest_iff`).

## Main definitions

* `RtosTimer`, `Answers`: A timer of the RTOS, and which commands it takes.
* `World`, `Event`, `step`: A Ticker with its calls and expiries.
* `Sound`, `KeepsRequest`: The law.
* `Careful`: The condition.

## Theorems

* `detach_idle`, `start_sound`: What a call leaves running.
* `inside_step`: What is known of the Ticker inside a callback.
* `keepsRequest_iff`: The law along a run.
-/

namespace ArduinoBeken

namespace Core.Ticker

/-- What an arming asks for. -/
structure Request where
  milliseconds : Nat
  callback : Option Nat
  repeats : Bool
deriving DecidableEq, Repr

/-- The calls of a sketch. -/
inductive Call where
  | start (r : Request)
  | detach
deriving DecidableEq, Repr

/-- `attach_ms`. -/
def attachMs (milliseconds : Nat) (callback : Option Nat) : Call :=
  .start { milliseconds, callback, repeats := true }

/-- `once_ms`. -/
def onceMs (milliseconds : Nat) (callback : Option Nat) : Call :=
  .start { milliseconds, callback, repeats := false }

/-- `attach`, where `toMs` is what the cast makes of a float. -/
def attach {F : Type*} (toMs : F → Nat) (seconds : F) (callback : Option Nat) : Call :=
  attachMs (toMs seconds) callback

/-- The call starts the timer. -/
def Call.arms : Call → Bool
  | .start _ => true
  | .detach => false

/-! ### The Ticker and its timer -/

/-- A timer of the RTOS that exists. -/
structure RtosTimer where
  milliseconds : Nat
  running : Bool := false
deriving DecidableEq, Repr

/-- Which commands the RTOS takes during a call. -/
structure Answers where
  stopped : Bool := true
  deinited : Bool := true
  inited : Bool := true
  started : Bool := true
deriving DecidableEq, Repr

/-- A Ticker, the timer behind its handle and those that it has lost. Two fields are
history: the calls that the callback has made so far, while it runs, and the request of
the last arming. -/
structure World where
  timer : Option RtosTimer := none
  callback : Option Nat := none
  repeats : Bool := false
  active : Bool := false
  lost : List RtosTimer := []
  inside : Option (List Call) := none
  last : Option Request := none
deriving DecidableEq, Repr

/-- `rtos_stop_timer`, which may fail. -/
def World.stopTimer (w : World) (ok : Bool) : World :=
  if ok then { w with timer := w.timer.map fun t => { t with running := false } } else w

/-- `rtos_deinit_timer`, which may fail. -/
def World.deinitTimer (w : World) (ok : Bool) : World :=
  if ok then { w with timer := none } else w

/-- The handle is written over. -/
def World.initTimer (w : World) (milliseconds : Nat) (ok : Bool) : World :=
  { w with
    lost := w.lost ++ w.timer.toList
    timer := if ok then some { milliseconds } else none }

/-- `rtos_start_timer`, which may fail. -/
def World.startTimer (w : World) (ok : Bool) : World :=
  if ok then { w with timer := w.timer.map fun t => { t with running := true } } else w

/-- `detach`: the fields are cleared whatever the system answers. -/
def World.detach (w : World) (a : Answers) : World :=
  if w.active then
    { (w.stopTimer a.stopped).deinitTimer a.deinited with callback := none, active := false }
  else w

/-- A call that starts the timer detaches it first, and writes the fields before the timer is
made. -/
def World.start (w : World) (r : Request) (a : Answers) : World :=
  (({ w.detach a with callback := r.callback, repeats := r.repeats, active := true }).initTimer
    r.milliseconds a.inited).startTimer a.started

/-- Some timer is running for the Ticker. -/
def World.ticking (w : World) : Bool :=
  (w.timer.toList ++ w.lost).any (·.running)

/-- A call, the beginning of `timerThunk`, or what it does behind the callback. -/
inductive Event where
  | call (c : Call) (a : Answers)
  | expire
  | finish (a : Answers)
deriving DecidableEq, Repr

/-- A call, put down in the history. -/
def World.call (w : World) (c : Call) (a : Answers) : World :=
  match c with
  | .start r => { w.start r a with inside := w.inside.map (· ++ [c]), last := some r }
  | .detach => { w.detach a with inside := w.inside.map (· ++ [c]) }

/-- A timer expires. -/
def World.expires (w : World) : Prop :=
  w.ticking = true ∧ w.inside = none

instance (w : World) : Decidable w.expires :=
  inferInstanceAs (Decidable (_ ∧ _))

/-- A call, the timer's expiry, or the end of the callback. -/
def step (w : World) : Event → World
  | .call c a => w.call c a
  | .expire => if w.expires ∧ w.callback ≠ none then { w with inside := some [] } else w
  | .finish a =>
    match w.inside with
    -- `m_repeat` is read behind the callback, which may have written it.
    | some _ => if w.repeats then { w with inside := none } else { w.detach a with inside := none }
    | none => w

/-! ### The law -/

/-- No timer without a handle is running. -/
def World.Kept (w : World) : Prop :=
  ∀ t ∈ w.lost, t.running = false

/-- The timer behind the handle is not running. -/
def World.Idle (w : World) : Prop :=
  ∀ t ∈ w.timer, t.running = false

/-- The Ticker serves a request. -/
structure Serves (w : World) (r : Request) : Prop where
  timer : w.timer = some { milliseconds := r.milliseconds, running := true }
  callback : w.callback = r.callback
  repeats : w.repeats = r.repeats

/-- An active Ticker has a running timer for the last request, and no other, and one that
is not active has none. -/
structure Sound (w : World) : Prop where
  kept : w.Kept
  active : w.active = true → ∃ r, w.last = some r ∧ Serves w r
  inactive : w.active = false → w.Idle

/-- The calls that were made inside the callback, for an event with which an expiry is
over. -/
def ended (w : World) : Event → Option (List Call)
  | .expire => if w.expires ∧ w.callback = none then some [] else none
  | .finish _ => w.inside
  | .call .. => none

/-- Behind an expiry the Ticker is active just when the last call in the callback was an
arming, or there was none and the Ticker is repeating, and its timer is the right one
behind each event. -/
structure KeepsRequest (w : World) (e : Event) : Prop where
  sound : Sound (step w e)
  ended : ∀ calls ∈ ended w e,
    (step w e).active = calls.getLast?.elim w.repeats Call.arms

/-! ### The condition -/

/-- The timer is stopped or deleted. -/
def Answers.releases (a : Answers) : Bool :=
  a.stopped || a.deinited

/-- The RTOS takes what is needed of the commands, a one-shot that expires has a callback,
and the last call that a callback makes is not an arming for once. -/
def Careful (w : World) : Event → Prop
  | .call c a =>
    (w.active = true → a.releases = true) ∧
      (c.arms = true → a.inited = true ∧ a.started = true)
  | .expire => w.expires → w.callback = none → w.repeats = true
  | .finish a => ∀ calls ∈ w.inside,
    (∀ r, calls.getLast? = some (.start r) → r.repeats = true) ∧
      (w.active = true → w.repeats = false → a.releases = true)

/-! ### What a call leaves running -/

/-- What is known of the Ticker inside a callback, from the last call made there. -/
def Inside (w : World) : Prop :=
  ∀ calls ∈ w.inside,
    match calls.getLast? with
    | none => w.active = true
    | some (.start r) => w.active = true ∧ w.repeats = r.repeats
    | some .detach => w.active = false

/-- The invariant, outside a callback and inside one. -/
structure Inv (w : World) : Prop where
  sound : Sound w
  inside : Inside w

@[simp] theorem detach_active (w : World) (a : Answers) : (w.detach a).active = false := by
  unfold World.detach
  by_cases hactive : w.active = true
  · rw [if_pos hactive]
  · rw [if_neg hactive]
    exact Bool.eq_false_iff.2 hactive

@[simp] theorem detach_lost (w : World) (a : Answers) : (w.detach a).lost = w.lost := by
  unfold World.detach World.deinitTimer World.stopTimer
  split_ifs <;> rfl

@[simp] theorem detach_repeats (w : World) (a : Answers) :
    (w.detach a).repeats = w.repeats := by
  unfold World.detach World.deinitTimer World.stopTimer
  split_ifs <;> rfl

/-- A running timer is released by one of the two commands. -/
theorem detach_idle (w : World) (a : Answers) (h : Sound w) :
    (w.detach a).Idle ↔ (w.active = true → a.releases = true) := by
  by_cases hactive : w.active = true
  · rcases h.active hactive with ⟨r, -, hserves⟩
    have htimer := hserves.timer
    unfold World.detach World.deinitTimer World.stopTimer World.Idle Answers.releases
    rw [if_pos hactive]
    -- Stopped, deleted, both, or still running.
    cases a.stopped <;> cases a.deinited <;> simp [htimer, hactive]
  · unfold World.detach
    rw [if_neg hactive]
    exact ⟨fun _ hon => absurd hon hactive, fun _ => h.inactive (Bool.eq_false_iff.2 hactive)⟩

theorem detach_sound (w : World) (a : Answers) (h : Sound w) (calls : Option (List Call)) :
    Sound { w.detach a with inside := calls } ↔ (w.active = true → a.releases = true) := by
  rw [← detach_idle w a h]
  refine ⟨fun hs => hs.inactive (detach_active w a), fun hidle => ⟨?_, ?_, fun _ => hidle⟩⟩
  · intro t ht
    exact h.kept t (by rwa [← detach_lost w a])
  · intro hon
    exact absurd ((detach_active w a).symm.trans hon) Bool.false_ne_true

theorem start_lost (w : World) (r : Request) (a : Answers) :
    (w.start r a).lost = w.lost ++ (w.detach a).timer.toList := by
  unfold World.start World.startTimer World.initTimer
  split_ifs <;> rw [← detach_lost w a]

theorem start_timer (w : World) (r : Request) (a : Answers) :
    (w.start r a).timer =
      if a.inited then some { milliseconds := r.milliseconds, running := a.started } else none := by
  unfold World.start World.startTimer World.initTimer
  cases a.inited <;> cases a.started <;> rfl

theorem start_fields (w : World) (r : Request) (a : Answers) :
    (w.start r a).active = true ∧ (w.start r a).callback = r.callback ∧
      (w.start r a).repeats = r.repeats := by
  unfold World.start World.startTimer World.initTimer
  split_ifs <;> exact ⟨rfl, rfl, rfl⟩

/-- The old timer is not lost while it runs, and the new one runs. -/
theorem start_sound (w : World) (r : Request) (a : Answers) (h : Sound w)
    (calls : Option (List Call)) :
    Sound { w.start r a with inside := calls, last := some r } ↔
      (w.active = true → a.releases = true) ∧ a.inited = true ∧ a.started = true := by
  rcases start_fields w r a with ⟨hactive, hcallback, hrepeats⟩
  -- The handle that is written over is the one that the detach has left.
  have hkept : (w.start r a).Kept ↔ (w.detach a).Idle := by
    unfold World.Kept World.Idle
    rw [start_lost]
    refine ⟨fun hlost t ht => hlost t ?_, fun hidle t ht => ?_⟩
    · exact List.mem_append.2 (Or.inr (Option.mem_toList.2 ht))
    · rcases List.mem_append.1 ht with hold | hnew
      · exact h.kept t hold
      · exact hidle t (Option.mem_toList.1 hnew)
  rw [← detach_idle w a h, ← hkept]
  constructor
  · intro hs
    refine ⟨hs.kept, ?_⟩
    rcases hs.active hactive with ⟨r', hr', hserves⟩
    obtain rfl := Option.some.inj hr'
    -- A timer serves the request only if it was created and started.
    have htimer := (start_timer w r a).symm.trans hserves.timer
    cases hin : a.inited with
    | false => simp [hin] at htimer
    | true => simpa [hin] using htimer
  · rintro ⟨hlost, hin, hon⟩
    refine ⟨hlost, fun _ => ⟨r, rfl, ?_, hcallback, hrepeats⟩, ?_⟩
    · exact (start_timer w r a).trans (by rw [if_pos hin, hon])
    · intro hoff
      exact absurd (hactive.symm.trans hoff) Bool.false_ne_true.symm

/-! ### Steps -/

/-- Only a running timer expires, so the Ticker is active. -/
theorem expires_active (w : World) (h : Sound w) (hexp : w.expires) : w.active = true := by
  by_contra hoff
  have hidle := h.inactive (Bool.eq_false_iff.2 hoff)
  obtain ⟨t, ht, hrun⟩ := List.any_eq_true.1 hexp.1
  -- Neither the timer behind the handle nor a lost one is running.
  rcases List.mem_append.1 ht with hmine | hlost
  · exact absurd hrun (by rw [hidle t (Option.mem_toList.1 hmine)]; exact Bool.false_ne_true)
  · exact absurd hrun (by rw [h.kept t hlost]; exact Bool.false_ne_true)

/-- The history of an active Ticker does not matter to its timer. -/
theorem sound_inside {w : World} (h : Sound w) (calls : Option (List Call)) :
    Sound { w with inside := calls } :=
  ⟨h.kept, fun hon => by
    rcases h.active hon with ⟨r, hr, hserves⟩
    exact ⟨r, hr, hserves.timer, hserves.callback, hserves.repeats⟩, h.inactive⟩

/-- Every event keeps what is known inside a callback. -/
theorem inside_step (w : World) (e : Event) (h : Inv w) : Inside (step w e) := by
  -- the callback is entered by the timer, and its calls are noted from then on
  cases e with
  | call c a =>
      intro calls hcalls
      cases c with
      | start r =>
          obtain ⟨old, -, rfl⟩ := Option.map_eq_some_iff.1 hcalls
          rw [List.getLast?_append_of_ne_nil _ (List.cons_ne_nil _ _)]
          -- The last call is the new one.
          have hfields := start_fields w r a
          exact ⟨hfields.1, hfields.2.2⟩
      | detach =>
          obtain ⟨old, -, rfl⟩ := Option.map_eq_some_iff.1 hcalls
          rw [List.getLast?_append_of_ne_nil _ (List.cons_ne_nil _ _)]
          exact detach_active w a
  | expire =>
      by_cases hexp : w.expires ∧ w.callback ≠ none
      · intro calls hcalls
        rw [step, if_pos hexp] at hcalls ⊢
        obtain rfl := Option.some.inj hcalls
        exact expires_active w h.sound hexp.1
      · rw [step, if_neg hexp]
        exact h.inside
  | finish a =>
      intro calls hcalls
      cases hin : w.inside with
      | none =>
          simp only [step, hin] at hcalls
          exact absurd hcalls (Option.some_ne_none _).symm
      | some old =>
          simp only [step, hin] at hcalls
          -- a timer that repeats stays, one that does not is deleted behind its callback
          by_cases hrep : w.repeats = true
          · rw [if_pos hrep] at hcalls
            exact absurd hcalls (Option.some_ne_none _).symm
          · rw [if_neg hrep] at hcalls
            exact absurd hcalls (Option.some_ne_none _).symm

/-- Behind a callback, the Ticker is as its last call left it, unless that was an arming
for once. -/
theorem finish_iff (w : World) (a : Answers) (calls : List Call) (h : Inv w)
    (hin : w.inside = some calls) :
    KeepsRequest w (.finish a) ↔ Careful w (.finish a) := by
  have hinside := h.inside calls hin
  by_cases hrep : w.repeats = true
  · have hstep : step w (.finish a) = { w with inside := none } := by
      simp only [step, hin, if_pos hrep]
    -- A repeating Ticker is left as the callback has it, so both sides hold.
    refine ⟨fun _ calls' hcalls' => ⟨?_, ?_⟩, fun _ => ⟨?_, ?_⟩⟩
    · intro r hr
      obtain rfl := Option.some.inj (hin.symm.trans hcalls')
      rw [hr] at hinside
      exact hinside.2.symm.trans hrep
    · exact fun _ hno => absurd (hrep.symm.trans hno) Bool.false_ne_true.symm
    · rw [hstep]
      exact sound_inside h.sound none
    · intro calls' hcalls'
      obtain rfl := Option.some.inj (hin.symm.trans hcalls')
      rw [hstep]
      cases hlast : calls.getLast? with
      | none =>
          rw [hlast] at hinside
          exact hinside.trans hrep.symm
      | some c =>
          rw [hlast] at hinside
          cases c with
          | start r => exact hinside.1
          | detach => exact hinside
  · have hoff : w.repeats = false := Bool.eq_false_iff.2 hrep
    have hstep : step w (.finish a) = { w.detach a with inside := none } := by
      simp only [step, hin, if_neg hrep]
    have hended : (∀ calls' ∈ ended w (.finish a), (step w (.finish a)).active =
        calls'.getLast?.elim w.repeats Call.arms) ↔
          ∀ r, calls.getLast? = some (.start r) → r.repeats = true := by
      -- What is not repeating is detached, also if the callback has armed it just now.
      have hactive : (step w (.finish a)).active = false := by
        rw [hstep]
        exact detach_active w a
      rw [hactive, hoff]
      constructor
      · intro hall r hr
        have hno := hall calls hin
        rw [hr] at hno
        exact absurd hno Bool.false_ne_true
      · intro hall calls' hcalls'
        obtain rfl := Option.some.inj (hin.symm.trans hcalls')
        cases hlast : calls.getLast? with
        | none => rfl
        | some c =>
            cases c with
            | start r =>
                -- an arming for once, as the Ticker is not repeating
                rw [hlast] at hinside
                have hyes := hinside.2.trans (hall r hlast)
                exact absurd (hoff.symm.trans hyes) Bool.false_ne_true
            | detach => rfl
    have hsound : Sound (step w (.finish a)) ↔ (w.active = true → a.releases = true) := by
      rw [hstep]
      exact detach_sound w a h.sound none
    refine ⟨fun hlaw calls' hcalls' => ?_, fun hcareful => ⟨?_, ?_⟩⟩
    · obtain rfl := Option.some.inj (hin.symm.trans hcalls')
      exact ⟨hended.1 hlaw.ended, fun hon _ => hsound.1 hlaw.sound hon⟩
    · exact hsound.2 fun hon => (hcareful calls hin).2 hon hoff
    · exact hended.2 (hcareful calls hin).1

/-- A one-shot without a callback stays. -/
theorem expire_iff (w : World) (h : Inv w) :
    KeepsRequest w .expire ↔ Careful w .expire := by
  have hsound : Sound (step w .expire) := by
    rw [step]
    split_ifs
    · exact sound_inside h.sound _
    · exact h.sound
  -- `timerThunk` returns before the detach.
  have hstay : w.callback = none → step w .expire = w := fun hnull => by
    rw [step, if_neg fun hexp => hexp.2 hnull]
  refine ⟨fun hlaw hexp hnull => ?_, fun hcareful => ⟨hsound, fun calls hcalls => ?_⟩⟩
  · have hactive := hlaw.ended [] (by rw [ended, if_pos ⟨hexp, hnull⟩]; rfl)
    rw [hstay hnull, expires_active w h.sound hexp] at hactive
    exact hactive.symm
  · by_cases hexp : w.expires ∧ w.callback = none
    · rw [ended, if_pos hexp] at hcalls
      obtain rfl := Option.some.inj hcalls
      rw [hstay hexp.2, expires_active w h.sound hexp.1]
      exact (hcareful hexp.1 hexp.2).symm
    · rw [ended, if_neg hexp] at hcalls
      exact absurd hcalls (Option.some_ne_none _).symm

theorem call_iff (w : World) (c : Call) (a : Answers) (h : Inv w) :
    KeepsRequest w (.call c a) ↔ Careful w (.call c a) := by
  have hlaw : KeepsRequest w (.call c a) ↔ Sound (w.call c a) :=
    ⟨fun hl => hl.sound, fun hs => ⟨hs, fun _ hno => absurd hno (Option.some_ne_none _).symm⟩⟩
  rw [hlaw]
  cases c with
  | start r =>
      refine (start_sound w r a h.sound _).trans (and_congr_right fun _ => ?_)
      exact ⟨fun hok _ => hok, fun hok => hok rfl⟩
  | detach =>
      refine (detach_sound w a h.sound _).trans ⟨fun hrel => ⟨hrel, ?_⟩, fun hok => hok.1⟩
      exact fun hno => absurd hno Bool.false_ne_true

theorem step_iff (w : World) (e : Event) (h : Inv w) : KeepsRequest w e ↔ Careful w e := by
  cases e with
  | call c a => exact call_iff w c a h
  | expire => exact expire_iff w h
  | finish a =>
      cases hin : w.inside with
      | some calls => exact finish_iff w a calls h hin
      | none =>
          -- nothing to come to an end
          have hno : ∀ calls, calls ∈ w.inside → False := fun calls hcalls =>
            absurd (hin.symm.trans hcalls) (Option.some_ne_none _).symm
          have hstep : step w (.finish a) = w := by simp only [step, hin]
          refine ⟨fun _ calls hcalls => (hno calls hcalls).elim, fun _ => ⟨?_, ?_⟩⟩
          · rw [hstep]
            exact h.sound
          · exact fun calls hcalls => (hno calls hcalls).elim

theorem inv_step (w : World) (e : Event) (h : Inv w) (hlaw : KeepsRequest w e) :
    Inv (step w e) :=
  ⟨hlaw.sound, inside_step w e h⟩

theorem inv_init : Inv {} := by
  refine ⟨⟨?_, ?_, ?_⟩, ?_⟩
  · exact fun t ht => absurd ht List.not_mem_nil
  · exact fun hon => absurd hon Bool.false_ne_true
  · exact fun _ t ht => absurd ht (Option.some_ne_none t).symm
  · exact fun calls hcalls => absurd hcalls (Option.some_ne_none calls).symm

/-- A Ticker keeps what was asked of it through a run if and only if every event of the run
is careful. -/
theorem keepsRequest_iff (es : List Event) :
    EventRun.Always step KeepsRequest {} es ↔ EventRun.Always step Careful {} es :=
  EventRun.always_iff_of_good inv_step step_iff inv_init es

/-- A one-shot whose callback arms it again. -/
def rearmed : List Event :=
  [.call (onceMs 100 (some 1)) {}, .expire, .call (onceMs 100 (some 1)) {}]

/-- The new arming is detached with the old one. -/
theorem rearming_lost : ¬ ∀ es, EventRun.Always step KeepsRequest {} es := by
  intro hall
  have hlaw := ((EventRun.always_append _ _ _ _ _).1 (hall (rearmed ++ [.finish {}]))).2.1
  have hended := hlaw.ended [onceMs 100 (some 1)] rfl
  exact absurd hended (by decide)

end Core.Ticker

end ArduinoBeken
