import ArduinoBeken.BLE.LocalDevice

/-!
# Whether the Controller Advertises

The device keeps a flag for what it believes of the controller, `advertising`, and sets it
by the results of two waits. A disconnect starts the advertising again by that flag, and
`stopAdvertise` does nothing without it.

The controller knows nothing of these waits. It changes when a command completes with
success, and the callback that says so may come while another command is awaited, or when
nothing is. So a start or stop that was taken is under way until its own callback comes,
and it is that callback that moves the controller here, never the result of a wait.

A wait that runs out of time says nothing about the command: it may be carried out after
all, once nobody waits for it. `stopAdvertise` is on the safe side then and leaves the flag
up. `advertise` takes the flag down, and a start that is carried out late is never stopped.
The same comes of the restart that follows a disconnect, which has no callback, if it is
carried out while a start that fails or a stop that succeeds is awaited, and of a wait that
is ended by the callback of another command.

## Main definitions

* `Controller`: Whether it advertises, and which commands are still under way.
* `Advertiser`: The device with its controller.
* `AdvEvent`: What can happen to them.
* `Conduct`: What one call of the device comes to.
* `Kept`: The flag is up while the controller advertises, and a device that was stopped is
  not started by a disconnect.
* `Told`: A start or stop hears its own command, and a start that nobody awaits finds the
  flag up.

## Theorems

* `perform_conduct`: At most one start or stop, which sets the flag.
* `foldl_hear_offAir`, `foldl_hear_stop`: What the callbacks of a wait do to the controller.
* `kept_of_told`: One event keeps the law.
* `always_kept_of_told`: So does a run.
* `late_start_unknown`: A start that was given up is carried out.
-/

namespace ArduinoBeken

namespace BLE

open EventRun

/-! ## The controller -/

/-- The controller: whether it advertises on the activity of the device, the starts and stops
    it took and has not completed, and the restarts it has not carried out. -/
structure Controller where
  onAir : Bool := false
  pending : List (Nat × BleCmd) := []
  restarts : Nat := 0

/-- The wait is for a start or a stop. -/
def AwaitedCmd.switches (a : AwaitedCmd) : Bool :=
  a.cmd == .startAdv || a.cmd == .stopAdv

namespace Controller

/-- A start or a stop is taken. -/
def take (k : Controller) (a : AwaitedCmd) : Controller :=
  if a.switches then { k with pending := (a.number, a.cmd) :: k.pending } else k

/-- A callback completes the command of its number. A command that failed changes nothing. -/
def hear (k : Controller) (cb : CmdCallback) : Controller :=
  if (cb.command, cb.cmd) ∈ k.pending then
    { k with
      onAir := if cb.param = some bleSuccess then cb.cmd == .startAdv else k.onAir
      pending := k.pending.erase (cb.command, cb.cmd) }
  else k

/-- A command is taken, and callbacks come until the wait for it is over. They may be those
    of other commands. -/
def after (k : Controller) (a : AwaitedCmd) : Controller :=
  a.arrived.foldl hear (k.take a)

/-- The callback puts the controller on air. -/
def Starts (k : Controller) (cb : CmdCallback) : Prop :=
  (cb.command, cb.cmd) ∈ k.pending ∧ cb.cmd = .startAdv ∧ cb.param = some bleSuccess

/-- A restart that was handed to the stack is carried out. -/
def restarted (k : Controller) : Controller :=
  if 0 < k.restarts then { k with onAir := true, restarts := k.restarts - 1 } else k

/-- A start is refused if the controller advertises when it comes to it, behind the commands
    that `advertise` awaits before. -/
def hears (k : Controller) (d : LocalDevice) : DeviceEvent → DeviceEvent
  | .advertise answers =>
      let before := (d.perform (.advertise
        { answers with start := { answers.start with accepted := false } })).waits
      .advertise { answers with
        start := { answers.start with
          accepted := answers.start.accepted && !(before.foldl after k).onAir } }
  | .stopAdvertise answer => .stopAdvertise answer

end Controller

/-- Whether `restartAdvertising` goes on to the stack. -/
def LocalDevice.restarts (d : LocalDevice) : Bool :=
  !(d.actvIdx == unknownActvIdx || !d.advertising)

/-- Whether the last start or stop that succeeded in its time is a stop. -/
def stoppedAfter (stopped : Bool) (a : AwaitedCmd) : Bool :=
  if a.switches && a.completes then a.cmd == .stopAdv else stopped

/-- The device, its controller, and whether the last start or stop that succeeded is a
    stop. -/
structure Advertiser where
  device : LocalDevice := {}
  controller : Controller := {}
  stopped : Bool := false

/-- What can happen. A restart that is under way may be carried out in the middle of a call.
    A disconnect in the middle of a call comes before it here, since a call looks at nothing
    a disconnect touches, and a callback that comes when nothing is awaited is `completed`. -/
inductive AdvEvent where
  | call (e : DeviceEvent) (restarted : Bool)
  | configure (localName deviceName serviceUuid manufacturerData : List UInt8)
  | connect
  | disconnect (accepted : Bool)
  | restarted
  | completed (cb : CmdCallback)

namespace Advertiser

/-- What a call comes to, next to its controller. -/
def performed (s : Advertiser) (e : DeviceEvent) : DeviceCall :=
  s.device.perform (s.controller.hears s.device e)

/-- One event. The waits of a call and what comes outside of them drive the controller. -/
def step (s : Advertiser) : AdvEvent → Advertiser
  | .call e restarted =>
      let c := s.performed e
      let k := c.waits.foldl Controller.after s.controller
      { device := c.device
        controller := if restarted then k.restarted else k
        stopped := c.waits.foldl stoppedAfter s.stopped }
  | .configure localName deviceName serviceUuid manufacturerData =>
      { s with device := { s.device with
        localName := localName
        deviceName := deviceName
        serviceUuid := serviceUuid
        manufacturerData := manufacturerData } }
  | .connect => { s with controller := { s.controller with onAir := false } }
  | .disconnect accepted =>
      if s.device.restarts && accepted then
        { s with controller := { s.controller with restarts := s.controller.restarts + 1 } }
      else s
  | .restarted => { s with controller := s.controller.restarted }
  | .completed cb => { s with controller := s.controller.hear cb }

/-- After the event the flag is up if the controller advertises, and a stop would be handed
    to the stack. A disconnect starts nothing that was stopped. -/
structure Kept (s : Advertiser) (e : AdvEvent) : Prop where
  flag : (s.step e).controller.onAir = true → (s.step e).device.advertising = true
  stops : (s.step e).controller.onAir = true → ∀ answer,
    (stopAdvertise answer { device := (s.step e).device }).device.issued =
      (s.step e).device.issued + 1
  restarts : ∀ accepted, e = .disconnect accepted → s.stopped = true →
    s.device.restarts = false

/-- In the time of the call a start is carried out that the call does not await: one that
    was given up before, or a restart. -/
def Unawaited (s : Advertiser) (e : DeviceEvent) (restarted : Bool) : Prop :=
  (restarted = true ∧ 0 < s.controller.restarts) ∨
    ∃ a ∈ (s.performed e).waits, ∃ cb ∈ a.window.arrived commandTimeoutMs none,
      s.controller.Starts cb

/-- The commands of the call keep the flag up: its start completes with success before its
    deadline, its stop does not, and if it issues neither, the flag was up. -/
structure StaysUp (s : Advertiser) (e : DeviceEvent) : Prop where
  start : ∀ a ∈ (s.performed e).waits, a.cmd = .startAdv → a.completes = true
  stop : ∀ a ∈ (s.performed e).waits, a.cmd = .stopAdv → a.completes = false
  neither : (∀ a ∈ (s.performed e).waits, a.switches = false) → s.device.advertising = true

/-- A start or a stop hears its own command, and a start that nobody awaits is carried out
    only while the flag is up and stays so. -/
def Told (s : Advertiser) : AdvEvent → Prop
  | .call e restarted =>
      (∀ a ∈ (s.performed e).waits, a.switches = true → a.Heard) ∧
        (s.Unawaited e restarted → s.StaysUp e)
  | .restarted => 0 < s.controller.restarts → s.device.advertising = true
  | .completed cb => s.controller.Starts cb → s.device.advertising = true
  | _ => True

end Advertiser

/-! ## What a call comes to -/

/-- No start and no stop so far, and the flag and a known activity as before. -/
structure Quiet (d : LocalDevice) (c : DeviceCall) : Prop where
  waits : ∀ a ∈ c.waits, a.switches = false
  advertising : c.device.advertising = d.advertising
  actvIdx : d.actvIdx ≠ unknownActvIdx → c.device.actvIdx ≠ unknownActvIdx

/-- What `advertise` comes to, whatever the stack answers to its start: it does not get that
    far, or the start is all that is left of it. -/
inductive Leads (d : LocalDevice) (f : CmdAnswer → DeviceCall) : Prop
  | stays (c : DeviceCall) (hquiet : Quiet d c) (hf : ∀ answer, f answer = c) : Leads d f
  | starts (c : DeviceCall) (hquiet : Quiet d c) (hactv : c.device.actvIdx ≠ unknownActvIdx)
      (hf : ∀ answer, f answer = (startAdvertising answer c).2) : Leads d f

/-- What a call of the device comes to: nothing about the advertising, or one start or stop
    at its end, which sets the flag. A start that is refused leaves the waits before it. -/
inductive Conduct (d : LocalDevice) (e : DeviceEvent) (c : DeviceCall) : Prop
  | quiet (hquiet : Quiet d c) : Conduct d e c
  | started (answers : AdvertiseAnswers) (a : AwaitedCmd) (before : List AwaitedCmd)
      (he : e = .advertise answers) (haccepted : answers.start.accepted = true)
      (hrefused : (d.perform (.advertise
        { answers with start := { answers.start with accepted := false } })).waits = before)
      (hwaits : c.waits = before ++ [a])
      (hbefore : ∀ b ∈ before, AwaitedCmd.switches b = false) (hcmd : a.cmd = .startAdv)
      (hflag : c.device.advertising = a.outcome.succeeded)
      (hactv : c.device.actvIdx ≠ unknownActvIdx) : Conduct d e c
  | stopped (a : AwaitedCmd) (hwaits : c.waits = [a]) (hcmd : a.cmd = .stopAdv)
      (hwas : d.advertising = true)
      (hflag : c.device.advertising = !a.outcome.succeeded)
      (hactv : c.device.actvIdx ≠ unknownActvIdx) : Conduct d e c

namespace Quiet

variable {d : LocalDevice}

/-- A call that has issued nothing leaves the index alone. -/
theorem new (d : LocalDevice) : Quiet d { device := d } :=
  ⟨fun _ ha => absurd ha List.not_mem_nil, rfl, id⟩

/-- A command that is no start and no stop changes nothing of that. -/
theorem issueCommand {c : DeviceCall} (h : Quiet d c) (cmd : BleCmd) (answer : CmdAnswer)
    (hcmd : cmd ≠ .startAdv ∧ cmd ≠ .stopAdv) : Quiet d (BLE.issueCommand cmd answer c).2 := by
  unfold BLE.issueCommand
  simp only
  split
  · refine ⟨fun a ha => ?_, h.advertising, h.actvIdx⟩
    rcases List.mem_append.1 ha with hold | hnew
    · exact h.waits a hold
    · rw [List.mem_singleton.1 hnew, AwaitedCmd.switches, Bool.or_eq_false_iff]
      exact ⟨beq_false_of_ne hcmd.1, beq_false_of_ne hcmd.2⟩
  · exact ⟨h.waits, h.advertising, h.actvIdx⟩

/-- Initialising leaves the index alone. -/
theorem ensureInitialized {c : DeviceCall} (h : Quiet d c) (bluetoothInit : Bool) :
    Quiet d (BLE.ensureInitialized bluetoothInit c).2 := by
  unfold BLE.ensureInitialized
  split_ifs
  · exact h
  · exact ⟨h.waits, h.advertising, h.actvIdx⟩
  · exact h

/-- A command leaves the activity index alone. -/
theorem actvIdx_issueCommand (cmd : BleCmd) (answer : CmdAnswer) (c : DeviceCall) :
    (BLE.issueCommand cmd answer c).2.device.actvIdx = c.device.actvIdx := by
  unfold BLE.issueCommand
  simp only
  split <;> rfl

/-- There is an activity afterwards, if the result says so. -/
theorem ensureActivity {c : DeviceCall} (h : Quiet d c) (answers : AdvertiseAnswers) :
    Quiet d (BLE.ensureActivity answers c).2 ∧
      ((BLE.ensureActivity answers c).1 = true →
        (BLE.ensureActivity answers c).2.device.actvIdx ≠ unknownActvIdx) := by
  unfold BLE.ensureActivity
  by_cases hactv : c.device.actvIdx ≠ unknownActvIdx
  · rw [if_pos hactv]
    exact ⟨h, fun _ => hactv⟩
  · rw [if_neg hactv]
    -- no activity yet, so none to be kept
    have hnone : ¬ d.actvIdx ≠ unknownActvIdx := fun hne => hactv (h.actvIdx hne)
    have hinit := h.ensureInitialized answers.bluetoothInit
    generalize BLE.ensureInitialized answers.bluetoothInit c = res at hinit ⊢
    rcases res with ⟨_ | _, c'⟩
    · exact ⟨hinit, fun hres => absurd hres Bool.false_ne_true⟩
    · simp only
      have hidle : Quiet d { c' with device := { c'.device with actvIdx := answers.idleActv } } :=
        ⟨hinit.waits, hinit.advertising, fun hne => absurd hne hnone⟩
      by_cases hunknown : answers.idleActv = unknownActvIdx
      · rw [if_pos hunknown]
        exact ⟨hidle, fun hres => absurd hres Bool.false_ne_true⟩
      · rw [if_neg hunknown]
        have hcreate := hidle.issueCommand .createAdv answers.create (by decide)
        have hkept := actvIdx_issueCommand .createAdv answers.create
          { c' with device := { c'.device with actvIdx := answers.idleActv } }
        generalize BLE.issueCommand .createAdv answers.create
          { c' with device := { c'.device with actvIdx := answers.idleActv } } = res
          at hcreate hkept ⊢
        rcases res with ⟨_ | _, c''⟩
        · refine ⟨⟨hcreate.waits, hcreate.advertising, fun hne => absurd hne hnone⟩, ?_⟩
          exact fun hres => absurd hres Bool.false_ne_true
        · exact ⟨hcreate, fun _ => hkept.symm ▸ hunknown⟩

/-- A payload is set, or is not: neither is a start. -/
theorem setPayload {c : DeviceCall} (h : Quiet d c) (cmd : BleCmd) (answer : CmdAnswer)
    (payload : List UInt8) (hcmd : cmd ≠ .startAdv ∧ cmd ≠ .stopAdv)
    (hactv : c.device.actvIdx ≠ unknownActvIdx) :
    ∀ res, (if payload.length > bleMaxAdvDataLen then (false, c)
        else BLE.issueCommand cmd answer c) = res →
      Quiet d res.2 ∧ res.2.device.actvIdx ≠ unknownActvIdx := by
  rintro res rfl
  split_ifs
  · exact ⟨h, hactv⟩
  · exact ⟨h.issueCommand cmd answer hcmd, (actvIdx_issueCommand cmd answer c).symm ▸ hactv⟩

/-- Once there is an activity, the start comes behind the data and the response. -/
theorem advertisePayloads {c : DeviceCall} (h : Quiet d c)
    (hactv : c.device.actvIdx ≠ unknownActvIdx) (answers : AdvertiseAnswers) :
    Leads d fun start => (BLE.advertisePayloads { answers with start := start } c).2 := by
  unfold BLE.advertisePayloads
  simp only
  -- each exit before the start leaves the activity as it was
  by_cases hname : answers.setDevName ≠ c.device.effectiveDeviceName.length % 256
  · exact .stays c h fun _ => by rw [if_pos hname]
  · simp only [if_neg hname]
    cases c.device.advData with
    | none => exact .stays c h fun _ => rfl
    | some payload =>
        simp only
        have hdata := h.setPayload .setAdvData answers.setAdvData payload (by decide) hactv
          (setAdvertisingPayload payload answers.setAdvData c) rfl
        generalize setAdvertisingPayload payload answers.setAdvData c = res at hdata ⊢
        rcases res with ⟨_ | _, c'⟩
        · exact .stays c' hdata.1 fun _ => rfl
        · simp only
          cases c'.device.scanResponse with
          | none => exact .starts c' hdata.1 hdata.2 fun _ => rfl
          | some response =>
              simp only
              have hrsp := hdata.1.setPayload .setRspData answers.setRspData response
                (by decide) hdata.2 (setScanResponsePayload response answers.setRspData c') rfl
              generalize setScanResponsePayload response answers.setRspData c' = res
                at hrsp ⊢
              rcases res with ⟨_ | _, c''⟩
              · exact .stays c'' hrsp.1 fun _ => rfl
              · exact .starts c'' hrsp.1 hrsp.2 fun _ => rfl

end Quiet

/-- The answer to the start is looked at last. -/
theorem advertise_leads (d : LocalDevice) (answers : AdvertiseAnswers) :
    Leads d fun start => d.perform (.advertise { answers with start := start }) := by
  simp only [LocalDevice.perform, advertise]
  -- every part of the call goes on from what the one before it left
  have hinit := (Quiet.new d).ensureInitialized answers.bluetoothInit
  generalize ensureInitialized answers.bluetoothInit { device := d } = res at hinit ⊢
  rcases res with ⟨_ | _, c⟩
  · exact .stays c hinit fun _ => rfl
  · simp only
    by_cases hfinalized : (!answers.finalized) = true
    · exact .stays c hinit fun _ => by rw [if_pos hfinalized]
    · simp only [if_neg hfinalized]
      have hactivity := hinit.ensureActivity answers
      have hsame : ∀ start, ensureActivity { answers with start := start } c =
          ensureActivity answers c := fun _ => rfl
      simp only [hsame]
      generalize ensureActivity answers c = res at hactivity ⊢
      rcases res with ⟨_ | _, c'⟩
      · exact .stays c' hactivity.1 fun _ => rfl
      · exact hactivity.1.advertisePayloads (hactivity.2 rfl) answers

/-- A call comes to one start or stop at most, which sets the flag. -/
theorem perform_conduct (d : LocalDevice) (e : DeviceEvent) : Conduct d e (d.perform e) := by
  have hnew := Quiet.new d
  cases e with
  | advertise answers =>
      -- the call ends before the start command, or comes down to it
      cases advertise_leads d answers with
      | stays c hquiet hf => exact .quiet (hf answers.start ▸ hquiet)
      | starts c hquiet hactv hf =>
          have hcall : d.perform (.advertise answers) = (startAdvertising answers.start c).2 :=
            hf answers.start
          -- a start the stack refuses is not waited for
          by_cases haccepted : answers.start.accepted = true
          · rw [hcall]
            simp only [startAdvertising, issueCommand, if_pos haccepted]
            refine .started answers _ c.waits rfl haccepted ?_ rfl hquiet.waits rfl rfl hactv
            rw [hf { answers.start with accepted := false }]
            rfl
          · rw [hcall]
            simp only [startAdvertising, issueCommand, if_neg haccepted]
            exact .quiet ⟨hquiet.waits, hquiet.advertising, hquiet.actvIdx⟩
  | stopAdvertise answer =>
      simp only [LocalDevice.perform, stopAdvertise, issueCommand]
      -- nothing to stop, a stop that is accepted, one that is refused
      split_ifs with hidle haccepted
      · exact .quiet hnew
      · rw [not_or, Bool.not_eq_false] at hidle
        exact .stopped _ rfl rfl hidle.2 rfl hidle.1
      · exact .quiet ⟨hnew.waits, rfl, id⟩

/-- With the flag up and an activity, a stop is handed to the stack. -/
theorem stopAdvertise_issues {d : LocalDevice} (hflag : d.advertising = true)
    (hactv : d.actvIdx ≠ unknownActvIdx) (answer : CmdAnswer) :
    (stopAdvertise answer { device := d }).device.issued = d.issued + 1 := by
  have hgoes : ¬ (d.actvIdx = unknownActvIdx ∨ d.advertising = false) :=
    fun h => h.elim hactv fun hdown => Bool.false_ne_true (hdown.symm.trans hflag)
  simp only [stopAdvertise, if_neg hgoes, issueCommand]
  split_ifs <;> rfl

/-! ## What callbacks do to the controller -/

namespace Controller

/-- A completion takes its own command off the list of pending ones. -/
theorem pending_hear (k : Controller) (cb : CmdCallback) :
    (k.hear cb).pending = k.pending.erase (cb.command, cb.cmd) := by
  unfold hear
  by_cases hmem : (cb.command, cb.cmd) ∈ k.pending
  · rw [if_pos hmem]
  · rw [if_neg hmem, List.erase_of_not_mem hmem]

/-- Hearing a completion makes no command pending. -/
theorem hear_pending (k : Controller) (cb : CmdCallback) : (k.hear cb).pending ⊆ k.pending :=
  k.pending_hear cb ▸ List.erase_subset

/-- Hearing completions makes no command pending. -/
theorem foldl_hear_pending (cbs : List CmdCallback) :
    ∀ k : Controller, (cbs.foldl hear k).pending ⊆ k.pending := by
  induction cbs with
  | nil => exact fun k => List.Subset.refl _
  | cons cb cbs ih => exact fun k => List.Subset.trans (ih (k.hear cb)) (k.hear_pending cb)

/-- What starts advertising with fewer commands pending starts it with more. -/
theorem Starts.mono {k k' : Controller} {cb : CmdCallback} (h : k'.Starts cb)
    (hsub : k'.pending ⊆ k.pending) : k.Starts cb :=
  ⟨hsub h.1, h.2⟩

/-- One callback that starts nothing leaves the controller off air. -/
theorem hear_offAir {k : Controller} {cb : CmdCallback} (hoff : k.onAir = false)
    (hnot : ¬ k.Starts cb) : (k.hear cb).onAir = false := by
  unfold hear
  split_ifs with hmem hparam
  · -- it succeeds, so it is a stop
    exact beq_false_of_ne fun hcmd => hnot ⟨hmem, hcmd, hparam⟩
  · exact hoff
  · exact hoff

/-- Completions of which none starts advertising leave the air silent. -/
theorem foldl_hear_offAir (cbs : List CmdCallback) :
    ∀ {k : Controller}, k.onAir = false → (∀ cb ∈ cbs, ¬ k.Starts cb) →
      (cbs.foldl hear k).onAir = false := by
  induction cbs with
  | nil => exact fun hoff _ => hoff
  | cons cb cbs ih =>
      intro k hoff hnot
      refine ih (hear_offAir hoff (hnot cb List.mem_cons_self)) fun cb' hcb' hstarts => ?_
      exact hnot cb' (List.mem_cons_of_mem cb hcb') (hstarts.mono (k.hear_pending cb))

/-- A stop that is under way and completes takes the controller off air, if nothing that
    comes with it is a start. -/
theorem foldl_hear_stop {n : Nat} (cbs : List CmdCallback) :
    ∀ {k : Controller}, (n, BleCmd.stopAdv) ∈ k.pending →
      (∃ cb ∈ cbs, cb.command = n ∧ cb.cmd = .stopAdv) →
      (∀ cb ∈ cbs, cb.command = n → cb.cmd = .stopAdv → cb.param = some bleSuccess) →
      (∀ cb ∈ cbs, ¬ k.Starts cb) → (cbs.foldl hear k).onAir = false := by
  induction cbs with
  | nil =>
      rintro k _ ⟨cb, hcb, _⟩
      exact absurd hcb List.not_mem_nil
  | cons cb cbs ih =>
      intro k hpending hown hsuccess hnot
      have hrest : ∀ cb' ∈ cbs, ¬ (k.hear cb).Starts cb' := fun cb' hcb' hstarts =>
        hnot cb' (List.mem_cons_of_mem cb hcb') (hstarts.mono (k.hear_pending cb))
      by_cases hthis : cb.command = n ∧ cb.cmd = .stopAdv
      · -- this is the stop, and nothing behind it starts anything
        have hparam := hsuccess cb List.mem_cons_self hthis.1 hthis.2
        refine foldl_hear_offAir cbs ?_ hrest
        rw [← hthis.1, ← hthis.2] at hpending
        rw [hear, if_pos hpending]
        simp only [if_pos hparam, hthis.2]
        rfl
      -- the stop is still to come, and what comes first does not take it away
      · refine ih ?_ ?_ (fun cb' hcb' => hsuccess cb' (List.mem_cons_of_mem cb hcb')) hrest
        · rw [pending_hear]
          exact (List.mem_erase_of_ne fun heq =>
            hthis ⟨(congrArg Prod.fst heq).symm, (congrArg Prod.snd heq).symm⟩).2 hpending
        · rcases hown with ⟨cb', hcb', hcb''⟩
          rcases List.mem_cons.1 hcb' with rfl | hmem
          · exact absurd hcb'' hthis
          · exact ⟨cb', hmem, hcb''⟩

/-- A completion restarts nothing. -/
theorem hear_restarts (k : Controller) (cb : CmdCallback) : (k.hear cb).restarts = k.restarts := by
  unfold hear
  split_ifs <;> rfl

/-- Completions restart nothing. -/
theorem foldl_hear_restarts (cbs : List CmdCallback) :
    ∀ k : Controller, (cbs.foldl hear k).restarts = k.restarts := by
  induction cbs with
  | nil => exact fun k => rfl
  | cons cb cbs ih => exact fun k => (ih (k.hear cb)).trans (k.hear_restarts cb)

/-- A command that neither starts nor stops advertising is not kept. -/
theorem take_of_not_switches (k : Controller) {a : AwaitedCmd} (h : a.switches = false) :
    k.take a = k := by
  rw [take, h]
  rfl

/-- A command that starts or stops advertising becomes pending. -/
theorem take_of_switches (k : Controller) {a : AwaitedCmd} (h : a.switches = true) :
    k.take a = { k with pending := (a.number, a.cmd) :: k.pending } := by
  rw [take, if_pos h]

/-- Waits for other commands complete only what was under way before. -/
theorem foldl_after_pending (before : List AwaitedCmd) :
    ∀ k : Controller, (∀ b ∈ before, AwaitedCmd.switches b = false) →
      (before.foldl after k).pending ⊆ k.pending := by
  induction before with
  | nil => exact fun k _ => List.Subset.refl _
  | cons b before ih =>
      intro k h
      refine List.Subset.trans (ih (k.after b) fun b' hb' => h b' (List.mem_cons_of_mem b hb')) ?_
      rw [after, k.take_of_not_switches (h b List.mem_cons_self)]
      exact foldl_hear_pending b.arrived k

/-- Waits in which nothing starts advertising leave the air silent. -/
theorem foldl_after_offAir (before : List AwaitedCmd) :
    ∀ {k : Controller}, (∀ b ∈ before, AwaitedCmd.switches b = false) → k.onAir = false →
      (∀ b ∈ before, ∀ cb ∈ b.arrived, ¬ k.Starts cb) →
      (before.foldl after k).onAir = false := by
  induction before with
  | nil => exact fun _ hoff _ => hoff
  | cons b before ih =>
      intro k h hoff hnot
      have htake := k.take_of_not_switches (h b List.mem_cons_self)
      refine ih (fun b' hb' => h b' (List.mem_cons_of_mem b hb')) ?_
        fun b' hb' cb hcb hstarts => ?_
      · rw [after, htake]
        exact foldl_hear_offAir b.arrived hoff (hnot b List.mem_cons_self)
      · refine hnot b' (List.mem_cons_of_mem b hb') cb hcb (hstarts.mono ?_)
        rw [after, htake]
        exact foldl_hear_pending b.arrived k

/-- A wait carries out no restart. -/
theorem after_restarts (k : Controller) (a : AwaitedCmd) : (k.after a).restarts = k.restarts := by
  rw [after, foldl_hear_restarts]
  unfold take
  split_ifs <;> rfl

/-- Waits restart nothing. -/
theorem foldl_after_restarts (waits : List AwaitedCmd) :
    ∀ k : Controller, (waits.foldl after k).restarts = k.restarts := by
  induction waits with
  | nil => exact fun k => rfl
  | cons a waits ih => exact fun k => (ih (k.after a)).trans (k.after_restarts a)

end Controller

/-! ## The invariant -/

/-- Commands that do not switch the air leave the last word as it was. -/
theorem stoppedAfter_quiet (before : List AwaitedCmd)
    (h : ∀ b ∈ before, AwaitedCmd.switches b = false) (stopped : Bool) :
    before.foldl stoppedAfter stopped = stopped := by
  induction before with
  | nil => rfl
  | cons b before ih =>
      rw [List.foldl_cons, stoppedAfter, h b List.mem_cons_self]
      exact ih fun b' hb' => h b' (List.mem_cons_of_mem b hb')

namespace Advertiser

/-- What the flag says of the controller, and what it comes with. -/
structure Tracks (s : Advertiser) : Prop where
  flag : s.controller.onAir = true → s.device.advertising = true
  actvIdx : s.device.advertising = true → s.device.actvIdx ≠ unknownActvIdx
  stopped : s.stopped = true → s.device.advertising = false

variable {s : Advertiser}

/-- A start that was taken finds the controller off air. -/
theorem offAir_of_accepted {e : DeviceEvent} {answers : AdvertiseAnswers}
    (he : s.controller.hears s.device e = .advertise answers)
    (haccepted : answers.start.accepted = true) {before : List AwaitedCmd}
    (hrefused : (s.device.perform (.advertise
      { answers with start := { answers.start with accepted := false } })).waits = before) :
    (before.foldl Controller.after s.controller).onAir = false := by
  cases e with
  | advertise answers' =>
      rw [← DeviceEvent.advertise.inj he] at haccepted hrefused
      rw [Bool.and_eq_true, Bool.not_eq_true'] at haccepted
      rw [← hrefused]
      exact haccepted.2
  | stopAdvertise answer => exact absurd he DeviceEvent.noConfusion

/-- What the device performs at an event is a call of its own. -/
theorem performed_genuine (s : Advertiser) (e : DeviceEvent) :
    LocalDevice.GenuineCall (s.performed e) :=
  LocalDevice.perform_genuine s.device (s.controller.hears s.device e)

/-- A start or stop that hears its own command reports what became of it. -/
theorem succeeded_of_told {e : DeviceEvent}
    (hheard : ∀ a ∈ (s.performed e).waits, a.switches = true → a.Heard) {a : AwaitedCmd}
    (ha : a ∈ (s.performed e).waits) (hswitches : a.switches = true) :
    a.outcome.succeeded = a.completes :=
  a.succeeded_eq_completes (performed_genuine s e a ha) (hheard a ha hswitches)

/-- A start switches the air. -/
theorem switches_start {a : AwaitedCmd} (h : a.cmd = .startAdv) : a.switches = true := by
  rw [AwaitedCmd.switches, h]
  rfl

/-- A stop switches the air. -/
theorem switches_stop {a : AwaitedCmd} (h : a.cmd = .stopAdv) : a.switches = true := by
  rw [AwaitedCmd.switches, h]
  rfl

/-- The commands that should keep the flag up do. -/
theorem up_of_staysUp {e : DeviceEvent}
    (hheard : ∀ a ∈ (s.performed e).waits, a.switches = true → a.Heard) (h : s.StaysUp e) :
    (s.performed e).device.advertising = true := by
  cases perform_conduct s.device (s.controller.hears s.device e) with
  | quiet hquiet => exact hquiet.advertising.trans (h.neither hquiet.waits)
  | started answers a before he haccepted hrefused hwaits hbefore hcmd hflag hactv =>
      have ha : a ∈ (s.performed e).waits :=
        hwaits ▸ List.mem_append_right before (List.mem_singleton_self a)
      exact hflag.trans
        ((succeeded_of_told hheard ha (switches_start hcmd)).trans (h.start a ha hcmd))
  | stopped a hwaits hcmd hwas hflag hactv =>
      have ha : a ∈ (s.performed e).waits := hwaits ▸ List.mem_singleton_self a
      rw [performed, hflag, Bool.not_eq_true']
      exact (succeeded_of_told hheard ha (switches_stop hcmd)).trans (h.stop a ha hcmd)

/-- A start under way that the call took itself completes with its own callback only. -/
theorem not_starts_take {k k' : Controller} {a : AwaitedCmd} {cb : CmdCallback}
    (hsub : k'.pending ⊆ k.pending) (hnot : ¬ k.Starts cb)
    (hown : a.cmd = .startAdv → ¬ (a.Completion cb ∧ cb.param = some bleSuccess)) :
    ¬ (k'.take a).Starts cb := by
  rintro ⟨hmem, hcmd, hparam⟩
  by_cases hswitches : a.switches = true
  · rw [k'.take_of_switches hswitches] at hmem
    rcases List.mem_cons.1 hmem with heq | hmem
    · have hstart : a.cmd = .startAdv := (congrArg Prod.snd heq).symm.trans hcmd
      exact hown hstart ⟨⟨congrArg Prod.fst heq, congrArg Prod.snd heq⟩, hparam⟩
    · exact hnot ⟨hsub hmem, hcmd, hparam⟩
  · rw [k'.take_of_not_switches (Bool.not_eq_true _ ▸ hswitches)] at hmem
    exact hnot ⟨hsub hmem, hcmd, hparam⟩

/-- A call that leaves the flag down leaves the controller off air, if its start or stop
    hears its own command and no other start is carried out meanwhile. -/
theorem offAir_of_down (h : s.Tracks) {e : DeviceEvent}
    (hheard : ∀ a ∈ (s.performed e).waits, a.switches = true → a.Heard)
    (hnot : ∀ a ∈ (s.performed e).waits, ∀ cb ∈ a.arrived, ¬ s.controller.Starts cb)
    (hdown : (s.performed e).device.advertising = false) :
    ((s.performed e).waits.foldl Controller.after s.controller).onAir = false := by
  cases perform_conduct s.device (s.controller.hears s.device e) with
  | quiet hquiet =>
      -- the flag was down before, and so was the controller
      have hoff : s.controller.onAir = false := by
        rw [← Bool.not_eq_true]
        exact fun hon => Bool.false_ne_true
          (hdown.symm.trans (hquiet.advertising.trans (h.flag hon)))
      exact Controller.foldl_after_offAir _ hquiet.waits hoff hnot
  | started answers a before he haccepted hrefused hwaits hbefore hcmd hflag hactv =>
      have ha : a ∈ (s.performed e).waits :=
        hwaits ▸ List.mem_append_right before (List.mem_singleton_self a)
      have hfails : a.completes = false :=
        (succeeded_of_told hheard ha (switches_start hcmd)).symm.trans (hflag.symm.trans hdown)
      -- it was taken off air, and its own callback says no success
      have hoff := offAir_of_accepted he haccepted hrefused
      have hpending := Controller.foldl_after_pending before s.controller hbefore
      change (List.foldl Controller.after s.controller (s.performed e).waits).onAir = false
      rw [performed, hwaits, List.foldl_append]
      refine Controller.foldl_hear_offAir a.arrived ?_ fun cb hcb =>
        not_starts_take hpending (hnot a ha cb hcb) fun _ hown => ?_
      · rw [Controller.take_of_switches _ (switches_start hcmd)]
        exact hoff
      · have hsub := a.arrived_subset_window (performed_genuine s e a ha)
        have hdone : a.completes = true := a.completes_iff.2 ⟨cb, hsub hcb, hown⟩
        exact Bool.false_ne_true (hfails.symm.trans hdone)
  | stopped a hwaits hcmd hwas hflag hactv =>
      have ha : a ∈ (s.performed e).waits := hwaits ▸ List.mem_singleton_self a
      have hswitches := switches_stop hcmd
      have hgenuine := performed_genuine s e a ha
      have hsucceeded : a.outcome.succeeded = true := by
        rw [performed, hflag, Bool.not_eq_false'] at hdown
        exact hdown
      have hhears := hheard a ha hswitches
      -- its own callback came with success, and the command completes once
      rcases (a.honest_of_heard hgenuine hhears).exact.1 hsucceeded with
        ⟨own, hmem, hown, hparam⟩
      have hsub := a.arrived_subset_window hgenuine
      rw [performed, hwaits]
      refine Controller.foldl_hear_stop a.arrived (n := a.number) ?_
        ⟨own, hmem, hown.1, hown.2.trans hcmd⟩ (fun cb hcb hnumber hstop => ?_)
        fun cb hcb => not_starts_take (List.Subset.refl _) (hnot a ha cb hcb) fun hstart => ?_
      · rw [Controller.take_of_switches _ hswitches, hcmd]
        exact List.mem_cons_self
      · rw [hhears.once cb (hsub hcb) own (hsub hmem) ⟨hnumber, hstop.trans hcmd.symm⟩ hown]
        exact hparam
      · exact absurd (hcmd.symm.trans hstart) BleCmd.noConfusion

/-- A restart that is not carried out changes nothing. -/
theorem restarted_of_not (k : Controller) (restarted : Bool)
    (h : ¬ (restarted = true ∧ 0 < k.restarts)) : (if restarted then k.restarted else k) = k := by
  cases restarted with
  | false => rfl
  | true =>
      rw [if_pos rfl, Controller.restarted, if_neg fun hpos => h ⟨rfl, hpos⟩]

/-- The flag is up behind a call that leaves the controller on air. -/
theorem flag_call (h : s.Tracks) (e : DeviceEvent) (restarted : Bool)
    (htold : s.Told (.call e restarted))
    (hon : (s.step (.call e restarted)).controller.onAir = true) :
    (s.performed e).device.advertising = true := by
  rcases htold with ⟨hheard, hstays⟩
  by_contra hdown
  rw [Bool.not_eq_true] at hdown
  -- so nothing was carried out that the call did not await
  have hnone : ¬ s.Unawaited e restarted := fun hun =>
    Bool.false_ne_true (hdown.symm.trans (up_of_staysUp hheard (hstays hun)))
  have hnot : ∀ a ∈ (s.performed e).waits, ∀ cb ∈ a.arrived, ¬ s.controller.Starts cb :=
    fun a ha cb hcb hstarts => hnone (Or.inr
      ⟨a, ha, cb, a.arrived_subset_window (performed_genuine s e a ha) hcb, hstarts⟩)
  have hoff := offAir_of_down h hheard hnot hdown
  have hrestarts := Controller.foldl_after_restarts (s.performed e).waits s.controller
  change (if restarted then
    ((s.performed e).waits.foldl Controller.after s.controller).restarted
    else (s.performed e).waits.foldl Controller.after s.controller).onAir = true at hon
  rw [restarted_of_not _ restarted fun hre => hnone (Or.inl (hrestarts ▸ hre)), hoff] at hon
  exact Bool.false_ne_true hon

theorem step_disconnect (s : Advertiser) (accepted : Bool) :
    s.step (.disconnect accepted) =
      if s.device.restarts && accepted then
        { s with controller := { s.controller with restarts := s.controller.restarts + 1 } }
      else s := rfl

theorem restarts_iff (d : LocalDevice) :
    d.restarts = true ↔ d.actvIdx ≠ unknownActvIdx ∧ d.advertising = true := by
  rw [LocalDevice.restarts, Bool.not_eq_true', Bool.or_eq_false_iff, beq_eq_false_iff_ne,
    Bool.not_eq_false']

/-- The flag is up behind an event that leaves the controller on air. -/
theorem flag_step (h : s.Tracks) (e : AdvEvent) (htold : s.Told e)
    (hon : (s.step e).controller.onAir = true) : (s.step e).device.advertising = true := by
  -- the controller goes on air by a restart or the completion of a start, and nothing else
  cases e with
  | call e restarted => exact flag_call h e restarted htold hon
  | configure localName deviceName serviceUuid manufacturerData => exact h.flag hon
  | connect => exact absurd hon Bool.false_ne_true
  | disconnect accepted =>
      rw [step_disconnect] at hon ⊢
      split_ifs at hon ⊢ <;> exact h.flag hon
  | restarted =>
      by_cases hpos : 0 < s.controller.restarts
      · exact htold hpos
      · refine h.flag ?_
        change s.controller.restarted.onAir = true at hon
        rwa [Controller.restarted, if_neg hpos] at hon
  | completed cb =>
      by_cases hstarts : s.controller.Starts cb
      · exact htold hstarts
      · -- no start, so the controller was on air before
        refine h.flag ?_
        by_contra hoff
        rw [Bool.not_eq_true] at hoff
        exact Bool.false_ne_true ((Controller.hear_offAir hoff hstarts).symm.trans hon)

/-- Only a call changes the flag, the activity, and whether the device was stopped. -/
theorem step_other (s : Advertiser) (e : AdvEvent)
    (he : ∀ call restarted, e ≠ .call call restarted) :
    (s.step e).device.advertising = s.device.advertising ∧
      (s.step e).device.actvIdx = s.device.actvIdx ∧ (s.step e).stopped = s.stopped := by
  cases e with
  | call e restarted => exact absurd rfl (he e restarted)
  | configure localName deviceName serviceUuid manufacturerData => exact ⟨rfl, rfl, rfl⟩
  | connect => exact ⟨rfl, rfl, rfl⟩
  | disconnect accepted =>
      rw [step_disconnect]
      split_ifs <;> exact ⟨rfl, rfl, rfl⟩
  | restarted => exact ⟨rfl, rfl, rfl⟩
  | completed cb => exact ⟨rfl, rfl, rfl⟩

/-- A call leaves an activity behind a flag that is up, and a flag that is down behind a stop
    that succeeded. -/
theorem tracks_call (h : s.Tracks) (e : DeviceEvent)
    (hheard : ∀ a ∈ (s.performed e).waits, a.switches = true → a.Heard) :
    ((s.performed e).device.advertising = true →
        (s.performed e).device.actvIdx ≠ unknownActvIdx) ∧
      ((s.performed e).waits.foldl stoppedAfter s.stopped = true →
        (s.performed e).device.advertising = false) := by
  cases perform_conduct s.device (s.controller.hears s.device e) with
  | quiet hquiet =>
      refine ⟨fun hup => hquiet.actvIdx (h.actvIdx (hquiet.advertising.symm.trans hup)), ?_⟩
      rw [performed, stoppedAfter_quiet _ hquiet.waits s.stopped]
      exact fun hstopped => hquiet.advertising.trans (h.stopped hstopped)
  | started answers a before he haccepted hrefused hwaits hbefore hcmd hflag hactv =>
      have ha : a ∈ (s.performed e).waits :=
        hwaits ▸ List.mem_append_right before (List.mem_singleton_self a)
      have hdone := succeeded_of_told hheard ha (switches_start hcmd)
      refine ⟨fun _ => hactv, ?_⟩
      rw [performed, hwaits, hflag, hdone, List.foldl_append, stoppedAfter_quiet before hbefore]
      rw [List.foldl_cons, List.foldl_nil, stoppedAfter, switches_start hcmd, Bool.true_and, hcmd]
      cases a.completes with
      | false => exact fun _ => rfl
      | true => exact fun hstop => absurd hstop Bool.false_ne_true
  | stopped a hwaits hcmd hwas hflag hactv =>
      have ha : a ∈ (s.performed e).waits := hwaits ▸ List.mem_singleton_self a
      have hdone := succeeded_of_told hheard ha (switches_stop hcmd)
      -- A stop goes to the stack only if the flag is up, so the last to succeed was a start.
      have hnot : s.stopped = false := by
        rw [← Bool.not_eq_true]
        exact fun hstopped => Bool.false_ne_true ((h.stopped hstopped).symm.trans hwas)
      refine ⟨fun _ => hactv, ?_⟩
      rw [performed, hwaits, hflag, hdone, List.foldl_cons, List.foldl_nil, stoppedAfter,
        switches_stop hcmd, Bool.true_and, hnot]
      cases a.completes with
      | false => exact fun hstop => absurd hstop Bool.false_ne_true
      | true => exact fun _ => rfl

theorem tracks_step (s : Advertiser) (e : AdvEvent) (h : s.Tracks) (htold : s.Told e) :
    (s.step e).Tracks := by
  by_cases hcall : ∃ call restarted, e = .call call restarted
  · rcases hcall with ⟨e, restarted, rfl⟩
    have hrest := tracks_call h e htold.1
    exact ⟨flag_step h _ htold, hrest.1, hrest.2⟩
  · rcases step_other s e fun call restarted heq => hcall ⟨call, restarted, heq⟩ with
      ⟨hflag, hactv, hstopped⟩
    refine ⟨flag_step h e htold, ?_, ?_⟩
    · rw [hflag, hactv]
      exact h.actvIdx
    · rw [hflag, hstopped]
      exact h.stopped

theorem kept_of_told (s : Advertiser) (e : AdvEvent) (h : s.Tracks) (htold : s.Told e) :
    s.Kept e := by
  have hnext := tracks_step s e h htold
  refine ⟨hnext.flag, fun hon => ?_, fun _ _ hstopped => ?_⟩
  · exact stopAdvertise_issues (hnext.flag hon) (hnext.actvIdx (hnext.flag hon))
  · rw [← Bool.not_eq_true, restarts_iff]
    exact fun hre => Bool.false_ne_true ((h.stopped hstopped).symm.trans hre.2)

theorem tracks_new : ({} : Advertiser).Tracks :=
  ⟨fun hon => absurd hon Bool.false_ne_true, fun hup => absurd hup Bool.false_ne_true,
    fun hstopped => absurd hstopped Bool.false_ne_true⟩

/-- In every run of a new device in which starts and stops hear their own commands and every
    other start that is carried out finds the flag up, the law is kept throughout. -/
theorem always_kept_of_told (es : List AdvEvent) (h : Always step Told {} es) :
    Always step Kept {} es :=
  always_of_inv kept_of_told tracks_step tracks_new h

/-- A controller that is idle refuses no start. -/
theorem hears_of_idle {k : Controller} (d : LocalDevice) (e : DeviceEvent)
    (hoff : k.onAir = false) (hpending : k.pending = []) : k.hears d e = e := by
  cases e with
  | stopAdvertise answer => rfl
  | advertise answers =>
      have hbefore : ((d.perform (.advertise { answers with
          start := { answers.start with accepted := false } })).waits.foldl Controller.after
          k).onAir = false := by
        have hquiet : ∀ a ∈ (d.perform (.advertise { answers with
            start := { answers.start with accepted := false } })).waits, a.switches = false := by
          cases advertise_leads d answers with
          | stays c hquiet hf => exact hf _ ▸ hquiet.waits
          | starts c hquiet hactv hf =>
              exact hf { answers.start with accepted := false } ▸ hquiet.waits
        refine Controller.foldl_after_offAir _ hquiet hoff fun _ _ cb _ hstarts => ?_
        exact List.not_mem_nil (hpending ▸ hstarts.1)
      rw [Controller.hears, hbefore, Bool.not_false, Bool.and_true]

theorem promptWait_arrived (before : CmdRecord) (number : Nat) (cmd : BleCmd) :
    (LocalDevice.promptWait before number cmd).arrived = [⟨number, cmd, some bleSuccess⟩] := rfl

/-- A controller that awaits nothing hears of one command. -/
theorem after_promptWait (onAir : Bool) (before : CmdRecord) (number : Nat) (cmd : BleCmd) :
    ({ onAir := onAir } : Controller).after (LocalDevice.promptWait before number cmd) =
      { onAir := if cmd = .startAdv then true else if cmd = .stopAdv then false else onAir } := by
  rw [Controller.after, promptWait_arrived]
  cases cmd <;> simp [Controller.take, Controller.hear, AwaitedCmd.switches,
    LocalDevice.promptWait]

/-- A named device is started, a disconnect restarts it, and it is stopped. -/
def startedAndStopped : List AdvEvent :=
  [.configure [] [66] [] [], .call LocalDevice.promptStart false, .disconnect true, .restarted,
    .call LocalDevice.promptStop false]

/-- The named device once its start is through. -/
def started : Advertiser where
  device :=
    { LocalDevice.named with
      initialized := true
      advertising := true
      actvIdx := 0
      record := LocalDevice.promptRecord .startAdv
      issued := 3 }
  controller := { onAir := true }

theorem performed_start :
    ({ device := LocalDevice.named } : Advertiser).performed LocalDevice.promptStart =
      LocalDevice.named.perform LocalDevice.promptStart := by
  rw [performed, hears_of_idle _ _ rfl rfl]

theorem step_start :
    ({ device := LocalDevice.named } : Advertiser).step (.call LocalDevice.promptStart false) =
      started := by
  rw [step, performed_start, LocalDevice.promptStart_performs]
  simp only [List.foldl_cons, List.foldl_nil, after_promptWait]
  simp [started, AwaitedCmd.switches, LocalDevice.promptWait, stoppedAfter]

/-- The first start of a device and a stop hear their own commands, and nothing else is
    under way. -/
theorem told_prompt {e : DeviceEvent} (hpending : s.controller.pending = [])
    (hprompt : ∀ a ∈ (s.performed e).waits, ∃ before number cmd,
      a = LocalDevice.promptWait before number cmd) : s.Told (.call e false) := by
  refine ⟨fun a ha _ => ?_, fun hun => ?_⟩
  · rcases hprompt a ha with ⟨before, number, cmd, rfl⟩
    exact LocalDevice.promptWait_heard before number cmd
  · rcases hun with ⟨hre, _⟩ | ⟨_, _, _, _, hstarts⟩
    · exact absurd hre Bool.false_ne_true
    · exact absurd (hpending ▸ hstarts.1) List.not_mem_nil

theorem always_kept_restarted : Always step Kept {} startedAndStopped := by
  refine always_kept_of_told startedAndStopped ⟨trivial, ?_, ?_⟩
  · refine told_prompt rfl fun a ha => ?_
    change a ∈ (({ device := LocalDevice.named } : Advertiser).performed
      LocalDevice.promptStart).waits at ha
    rw [performed_start, LocalDevice.promptStart_performs] at ha
    simp only [List.mem_cons, List.not_mem_nil, or_false] at ha
    rcases ha with rfl | rfl | rfl <;> exact ⟨_, _, _, rfl⟩
  · change Always step Told (({ device := LocalDevice.named } : Advertiser).step
      (.call LocalDevice.promptStart false)) [.disconnect true, .restarted,
        .call LocalDevice.promptStop false]
    rw [step_start]
    refine ⟨trivial, fun _ => rfl, told_prompt rfl fun a ha => ?_, trivial⟩
    change a ∈ (LocalDevice.perform started.device LocalDevice.promptStop).waits at ha
    rw [LocalDevice.promptStop_performs _ (by decide) rfl rfl] at ha
    exact ⟨_, _, _, List.mem_singleton.1 ha⟩

/-- Without any callback a wait is over at its deadline. -/
theorem silent_turn (r : CmdRecord) (cmd : BleCmd) :
    (CmdWindow.await {} r cmd commandTimeoutMs).turn = none := by
  cases CmdWindow.awaited_ends {} r cmd commandTimeoutMs with
  | found i _ _ hfinds _ _ _ =>
      rw [CmdWindow.Finds, CmdWindow.record, LocalDevice.silent_before] at hfinds
      exact absurd hfinds.1 Bool.false_ne_true
  | late _ hturn _ => exact hturn

/-- A command that was taken and of which nothing is heard. -/
def silentWait (before : CmdRecord) (number : Nat) (cmd : BleCmd) : AwaitedCmd :=
  ⟨number, cmd, before, {}, CmdWindow.await {} before cmd commandTimeoutMs⟩

theorem silentWait_arrived (before : CmdRecord) (number : Nat) (cmd : BleCmd) :
    (silentWait before number cmd).arrived = [] := by
  rw [AwaitedCmd.arrived, silentWait, silent_turn, CmdWindow.arrived, LocalDevice.silent_before]
  rfl

theorem issue_silent (cmd : BleCmd) (c : DeviceCall) :
    issueCommand cmd ⟨true, {}⟩ c =
      (false,
        { device := { c.device with
            record := (silentWait c.device.record c.device.issued cmd).outcome.record
            issued := c.device.issued + 1 }
          waits := c.waits ++ [silentWait c.device.record c.device.issued cmd] }) := by
  unfold issueCommand
  simp only [if_true, LocalDevice.silent_fails]
  rfl

/-- The activity is created and the payload set at once. Nothing is heard of the start. -/
def unheardStart : DeviceEvent :=
  .advertise
    { bluetoothInit := true
      finalized := true
      idleActv := 0
      create := LocalDevice.promptAnswer 0 .createAdv
      setDevName := 1
      setAdvData := LocalDevice.promptAnswer 1 .setAdvData
      setRspData := ⟨false, {}⟩
      start := ⟨true, {}⟩ }

/-- The start is carried out after its wait: the controller advertises, and the flag is
    down. -/
theorem late_start_unknown :
    ¬ Always step Kept {} [.configure [] [66] [] [], .call unheardStart false,
      .completed ⟨2, .startAdv, some bleSuccess⟩] := by
  intro h
  -- The law fails behind the third event, the start that comes late.
  have hflag := h.2.2.1.flag
  have hidle : ∀ d e, ({} : Controller).hears d e = e := fun d e => hears_of_idle d e rfl rfl
  simp [step, performed, hidle, LocalDevice.perform, unheardStart,
    advertise, ensureInitialized, ensureActivity, unknownActvIdx, LocalDevice.issue_prompt,
    advertisePayloads, LocalDevice.effectiveDeviceName, LocalDevice.advData,
    appendServiceUuidField, setAdvertisingPayload, LocalDevice.scanResponse, startAdvertising,
    issue_silent, bleMaxAdvDataLen, after_promptWait] at hflag
  rw [Controller.after, silentWait_arrived] at hflag
  exact Bool.false_ne_true hflag.symm

end Advertiser

end BLE

end ArduinoBeken
