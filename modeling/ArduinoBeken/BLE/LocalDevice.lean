import ArduinoBeken.BLE.CommandWait
import ArduinoBeken.Library.Run

/-!
# The Local BLE Device

The device behind the global `BLE` advertises through commands of the stack:
one creates the activity, two set the payloads, and one each starts and stops
it. Every one of them resets the variables of the callback, is handed to the
stack, and is then awaited.

What the stack answers is a parameter. `finalizeDatabase` is modelled on its
own, so its result is an answer here.

## Main definitions

* `LocalDevice`: The object with the variables of the callback.
* `advData`, `scanResponse`: The two payloads.
* `issueCommand`: One command, from its reset to the end of its wait.
* `ensureActivity`, `advertise`, `stopAdvertise`: The methods that wait.
* `AwaitedCmd.Honest`: The law of one wait.
* `AwaitedCmd.Heard`: The windows in which the loop hears its own command.

## Theorems

* `honest_of_heard`: A wait that hears its command is honest about it.
* `waits_honest`: So is every wait of a run of such waits.
-/

namespace ArduinoBeken

namespace BLE

open EventRun (run Always)

/-- The index before an activity is created. -/
def unknownActvIdx : Nat := 0xFF
/-- `BK_BLE_MAX_ADV_DATA_LEN`. -/
def bleMaxAdvDataLen : Nat := 0x1F
/-- The milliseconds that a command is waited for. -/
def commandTimeoutMs : Nat := 2000

/-- A command that was handed to the stack and awaited: its number, the
variables before it, when callbacks came, and how the wait ended. -/
structure AwaitedCmd where
  number : Nat
  cmd : BleCmd
  before : CmdRecord
  window : CmdWindow
  outcome : Waited

/-- What the stack answers to a command, and the callbacks meanwhile. -/
structure CmdAnswer where
  accepted : Bool
  window : CmdWindow

/-- The device, the variables of the callback, and the number of the next
command. -/
structure LocalDevice where
  initialized : Bool := false
  advertising : Bool := false
  actvIdx : Nat := unknownActvIdx
  localName : List UInt8 := []
  deviceName : List UInt8 := []
  serviceUuid : List UInt8 := []
  manufacturerData : List UInt8 := []
  record : CmdRecord := {}
  issued : Nat := 0

/-- A method under way: the device, and the commands it has awaited. -/
structure DeviceCall where
  device : LocalDevice
  waits : List AwaitedCmd := []

/-! ### The payloads -/

/-- `isxdigit`. -/
def isXDigit (c : UInt8) : Bool :=
  (48 ≤ c && c ≤ 57) || (65 ≤ c && c ≤ 70) || (97 ≤ c && c ≤ 102)

/-- `tolower`. -/
def toLowerByte (c : UInt8) : UInt8 :=
  if 65 ≤ c && c ≤ 90 then c + 32 else c

/-- The value of a lower-case hexadecimal digit. -/
def nibble (c : UInt8) : UInt8 :=
  if c ≤ 57 then c - 48 else c - 87

/-- The bytes of pairs of lower-case hexadecimal digits. -/
def hexPairs : List UInt8 → List UInt8
  | hi :: lo :: rest => (nibble hi * 16 + nibble lo) :: hexPairs rest
  | _ => []

/-- `appendServiceUuidField`: the payload with the UUID, little-endian. -/
def appendServiceUuidField (uuid adv : List UInt8) (capacity : Nat) : Option (List UInt8) :=
  if uuid.length = 0 then some adv
  else
    let hex := ((uuid.takeWhile (· != 0)).filter isXDigit).map toLowerByte
    let uuidLen := if hex.length = 4 then some 2 else if hex.length = 32 then some 16 else none
    match uuidLen with
    | none => none
    | some len =>
        let adType : UInt8 := if len = 2 then 0x03 else 0x07
        if adv.length + len + 2 > capacity then none
        else some (adv ++ [UInt8.ofNat (len + 1), adType] ++ (hexPairs hex).reverse)

/-- The advertising payload of `advertise`. -/
def LocalDevice.advData (d : LocalDevice) : Option (List UInt8) :=
  match appendServiceUuidField d.serviceUuid [0x02, 0x01, 0x06] bleMaxAdvDataLen with
  | none => none
  | some adv =>
      if d.manufacturerData = [] then some adv
      else if d.manufacturerData.length + 2 + adv.length > bleMaxAdvDataLen then none
      else some (adv ++ [UInt8.ofNat (d.manufacturerData.length + 1), 0xFF] ++ d.manufacturerData)

/-- The scan response of `advertise`, where there is one. -/
def LocalDevice.scanResponse (d : LocalDevice) : Option (List UInt8) :=
  if d.localName.length ≠ 0 ∧ d.localName.length + 2 ≤ bleMaxAdvDataLen then
    some ([UInt8.ofNat (d.localName.length + 1), 0x09] ++ d.localName)
  else none

/-- The name `advertise` gives the stack. -/
def LocalDevice.effectiveDeviceName (d : LocalDevice) : List UInt8 :=
  if d.deviceName.length ≠ 0 then d.deviceName
  else if d.localName.length ≠ 0 then d.localName
  else "arduino-beken".toUTF8.toList

/-! ### Commands -/

/-- Resets the variables, hands a command to the stack, and waits for it if the
stack took it. -/
def issueCommand (cmd : BleCmd) (answer : CmdAnswer) (c : DeviceCall) : Bool × DeviceCall :=
  let d := c.device
  if answer.accepted then
    let outcome := answer.window.await d.record cmd commandTimeoutMs
    (outcome.succeeded,
      { device := { d with record := outcome.record, issued := d.issued + 1 }
        waits := c.waits ++ [⟨d.issued, cmd, d.record, answer.window, outcome⟩] })
  else
    (false,
      { c with
        device := { d with record := answer.window.record d.record 0, issued := d.issued + 1 } })

/-- What the stack answers during one `advertise`. -/
structure AdvertiseAnswers where
  bluetoothInit : Bool
  finalized : Bool
  idleActv : Nat
  create : CmdAnswer
  setDevName : Nat
  setAdvData : CmdAnswer
  setRspData : CmdAnswer
  start : CmdAnswer

/-- The stack is initialised once. -/
def ensureInitialized (bluetoothInit : Bool) (c : DeviceCall) : Bool × DeviceCall :=
  if c.device.initialized then (true, c)
  else if bluetoothInit then (true, { c with device := { c.device with initialized := true } })
  else (false, c)

/-- The activity of the device is created once, with the index that the stack says is idle. -/
def ensureActivity (answers : AdvertiseAnswers) (c : DeviceCall) : Bool × DeviceCall :=
  if c.device.actvIdx ≠ unknownActvIdx then (true, c)
  else
    match ensureInitialized answers.bluetoothInit c with
    | (false, c) => (false, c)
    | (true, c) =>
        let c := { c with device := { c.device with actvIdx := answers.idleActv } }
        if c.device.actvIdx = unknownActvIdx then (false, c)
        else
          match issueCommand .createAdv answers.create c with
          | (true, c) => (true, c)
          | (false, c) => (false, { c with device := { c.device with actvIdx := unknownActvIdx } })

/-- The payload of an advertisement is set, if the stack takes so many bytes. -/
def setAdvertisingPayload (payload : List UInt8) (answer : CmdAnswer) (c : DeviceCall) :
    Bool × DeviceCall :=
  if payload.length > bleMaxAdvDataLen then (false, c) else issueCommand .setAdvData answer c

/-- The payload of the scan response is set, if the stack takes so many bytes. -/
def setScanResponsePayload (payload : List UInt8) (answer : CmdAnswer) (c : DeviceCall) :
    Bool × DeviceCall :=
  if payload.length > bleMaxAdvDataLen then (false, c) else issueCommand .setRspData answer c

/-- The last command of `advertise`. A refusal leaves the flag as it was. -/
def startAdvertising (answer : CmdAnswer) (c : DeviceCall) : Bool × DeviceCall :=
  let (started, c) := issueCommand .startAdv answer c
  if answer.accepted then
    (started, { c with device := { c.device with advertising := started } })
  else (false, c)

/-- `advertise` once the activity is there: the name, the payloads, the start. -/
def advertisePayloads (answers : AdvertiseAnswers) (c : DeviceCall) : Bool × DeviceCall :=
  let nameLen := c.device.effectiveDeviceName.length % 256
  if answers.setDevName ≠ nameLen then (false, c)
  else
    match c.device.advData with
    | none => (false, c)
    | some payload =>
        match setAdvertisingPayload payload answers.setAdvData c with
        | (false, c) => (false, c)
        | (true, c) =>
            match c.device.scanResponse with
            | none => startAdvertising answers.start c
            | some response =>
                match setScanResponsePayload response answers.setRspData c with
                | (false, c) => (false, c)
                | (true, c) => startAdvertising answers.start c

/-- `advertise`: whether it returns 1. What has been reached stays if a later part fails. -/
def advertise (answers : AdvertiseAnswers) (c : DeviceCall) : Bool × DeviceCall :=
  match ensureInitialized answers.bluetoothInit c with
  | (false, c) => (false, c)
  | (true, c) =>
      if !answers.finalized then (false, c)
      else
        match ensureActivity answers c with
        | (false, c) => (false, c)
        | (true, c) => advertisePayloads answers c

/-- `stopAdvertise`. The flag stays up if the stop was not seen to succeed. -/
def stopAdvertise (answer : CmdAnswer) (c : DeviceCall) : DeviceCall :=
  if c.device.actvIdx = unknownActvIdx ∨ c.device.advertising = false then c
  else
    let (stopped, c) := issueCommand .stopAdv answer c
    if answer.accepted then
      { c with device := { c.device with advertising := !stopped } }
    else c

/-! ### The law of a wait -/

namespace AwaitedCmd

/-- The callback completes this very command. -/
def Completion (a : AwaitedCmd) (cb : CmdCallback) : Prop :=
  cb.command = a.number ∧ cb.cmd = a.cmd

/-- The callbacks until the wait was over. -/
def arrived (a : AwaitedCmd) : List CmdCallback :=
  a.window.arrived commandTimeoutMs a.outcome.turn

/-- The wait succeeds exactly when the command completed with success before
it was over, and it is over early only by the completion of the command. -/
structure Honest (a : AwaitedCmd) : Prop where
  exact : a.outcome.succeeded = true ↔
    ∃ cb ∈ a.arrived, a.Completion cb ∧ cb.param = some bleSuccess
  patient : a.outcome.succeeded = false →
    a.outcome.turn = none ∨ ∃ cb ∈ a.arrived, a.Completion cb

/-- When callbacks came such that the loop hears its own command: the first
turn that finds the kind of command reads the status of this very command; a
completion with success in time is found by some turn; and a command completes
once. -/
structure Heard (a : AwaitedCmd) : Prop where
  own : ∀ i, CmdWindow.InTime commandTimeoutMs i → a.window.Finds a.before a.cmd i →
    (∀ j, j < i → ¬ a.window.Finds a.before a.cmd j) →
    ∃ cb, (a.window.atStatus i).getLast? = some cb ∧ a.Completion cb
  found : ∀ cb ∈ a.window.arrived commandTimeoutMs none,
    a.Completion cb → cb.param = some bleSuccess →
    ∃ i, CmdWindow.InTime commandTimeoutMs i ∧ a.window.Finds a.before a.cmd i
  once : ∀ cb ∈ a.window.arrived commandTimeoutMs none,
    ∀ cb' ∈ a.window.arrived commandTimeoutMs none, a.Completion cb → a.Completion cb' → cb = cb'

/-- The outcome is that of the loop. -/
def Genuine (a : AwaitedCmd) : Prop :=
  a.outcome = a.window.await a.before a.cmd commandTimeoutMs

/-- A wait that has heard its own completion tells the truth. -/
theorem honest_of_heard (a : AwaitedCmd) (hgenuine : a.Genuine) (h : a.Heard) : a.Honest := by
  have hends := a.window.awaited_ends a.before a.cmd commandTimeoutMs
  rw [← hgenuine] at hends
  cases hends with
  | found i _ htime hfinds hfirst hturn hstatus =>
      rcases h.own i htime hfinds (fun j hj => hfirst j (Nat.zero_le j) hj) with
        ⟨cb, hlast, hown⟩
      have hmem : cb ∈ a.arrived := by
        rw [arrived, hturn]
        exact List.mem_append_right _ (List.mem_of_getLast? hlast)
      have hread : a.window.statusAt a.before i = cb.param.getD bleFail :=
        a.window.statusAt_of_latest a.before i cb hlast
      rw [hread, CmdCallback.getD_success] at hstatus
      refine ⟨hstatus.trans ⟨fun hcb => ⟨cb, hmem, hown, hcb⟩, ?_⟩,
        fun _ => Or.inr ⟨cb, hmem, hown⟩⟩
      rintro ⟨cb', hmem', hown', hcb'⟩
      -- the command completes once, so the status read is the one that came
      have hsub := a.window.arrived_subset commandTimeoutMs i htime
      rw [arrived, hturn] at hmem hmem'
      rw [h.once cb (hsub hmem) cb' (hsub hmem') hown hown']
      exact hcb'
  | late hnone hturn hfailed =>
      refine ⟨⟨fun hs => absurd (hfailed.symm.trans hs) (by simp), ?_⟩, fun _ => Or.inl hturn⟩
      rintro ⟨cb, hmem, hown, hcb⟩
      rw [arrived, hturn] at hmem
      rcases h.found cb hmem hown hcb with ⟨i, htime, hfinds⟩
      exact absurd hfinds (hnone i (Nat.zero_le i) htime)

/-- What has arrived when the wait ends arrives inside the window. -/
theorem arrived_subset_window (a : AwaitedCmd) (hgenuine : a.Genuine) :
    a.arrived ⊆ a.window.arrived commandTimeoutMs none := by
  have hends := a.window.awaited_ends a.before a.cmd commandTimeoutMs
  rw [← hgenuine] at hends
  rw [arrived]
  cases hends with
  | found i _ htime _ _ hturn _ =>
      rw [hturn]
      exact a.window.arrived_subset commandTimeoutMs i htime
  | late _ hturn _ =>
      rw [hturn]
      exact List.Subset.refl _

/-- The command completes with success before its deadline. -/
def completes (a : AwaitedCmd) : Bool :=
  (a.window.arrived commandTimeoutMs none).any fun cb =>
    cb.command == a.number && cb.cmd == a.cmd && cb.param == some bleSuccess

/-- A command completes exactly if its own success arrives inside the window. -/
theorem completes_iff (a : AwaitedCmd) :
    a.completes = true ↔ ∃ cb ∈ a.window.arrived commandTimeoutMs none,
      a.Completion cb ∧ cb.param = some bleSuccess := by
  simp only [completes, List.any_eq_true, Bool.and_eq_true, beq_iff_eq, Completion]

/-- What a wait that hears its own command returns is settled by the callbacks alone. -/
theorem succeeded_eq_completes (a : AwaitedCmd) (hgenuine : a.Genuine) (h : a.Heard) :
    a.outcome.succeeded = a.completes := by
  have honest := a.honest_of_heard hgenuine h
  have hsub := a.arrived_subset_window hgenuine
  rw [Bool.eq_iff_iff, honest.exact, completes_iff]
  constructor
  · rintro ⟨cb, hcb, hown⟩
    exact ⟨cb, hsub hcb, hown⟩
  · rintro ⟨cb, hcb, hown, hparam⟩
    by_contra hnot
    rw [← honest.exact, Bool.not_eq_true] at hnot
    -- a wait that fails early has read the one completion there is
    have hmem : cb ∈ a.arrived := by
      rcases honest.patient hnot with hturn | ⟨cb', hcb', hown'⟩
      · rwa [arrived, hturn]
      · rwa [h.once cb hcb cb' (hsub hcb') hown hown']
    exact Bool.false_ne_true (hnot.symm.trans (honest.exact.2 ⟨cb, hmem, hown, hparam⟩))

end AwaitedCmd

/-! ### Runs -/

/-- The calls of the device that can wait for a command. `end` is
`stopAdvertise`. -/
inductive DeviceEvent where
  | advertise (answers : AdvertiseAnswers)
  | stopAdvertise (answer : CmdAnswer)

namespace LocalDevice

/-- A call of the sketch, with the waits that it comes to. -/
def perform (d : LocalDevice) : DeviceEvent → DeviceCall
  | .advertise answers => (BLE.advertise answers { device := d }).2
  | .stopAdvertise answer => BLE.stopAdvertise answer { device := d }

/-- The device behind a call. -/
def step (d : LocalDevice) (e : DeviceEvent) : LocalDevice :=
  (d.perform e).device

/-- Every wait of the call is one of the loop. -/
def GenuineCall (c : DeviceCall) : Prop :=
  ∀ a ∈ c.waits, a.Genuine

/-- A command's wait is one the controller can give. -/
theorem issueCommand_genuine (cmd : BleCmd) (answer : CmdAnswer) (c : DeviceCall)
    (h : GenuineCall c) : GenuineCall (issueCommand cmd answer c).2 := by
  unfold issueCommand
  split
  · intro a ha
    rcases List.mem_append.1 ha with hold | hnew
    · exact h a hold
    · rw [List.mem_singleton] at hnew
      exact hnew ▸ rfl
  · exact h

/-- Initialising waits for nothing that the controller cannot give. -/
theorem ensureInitialized_genuine (bluetoothInit : Bool) (c : DeviceCall) (h : GenuineCall c) :
    GenuineCall (ensureInitialized bluetoothInit c).2 := by
  unfold ensureInitialized
  split
  · exact h
  · split
    · exact h
    · exact h

/-- Making an activity waits for nothing that the controller cannot give. -/
theorem ensureActivity_genuine (answers : AdvertiseAnswers) (c : DeviceCall)
    (h : GenuineCall c) : GenuineCall (ensureActivity answers c).2 := by
  unfold ensureActivity
  -- an activity that is there is kept; else it is created after the initialisation
  split
  · exact h
  · have hinit := ensureInitialized_genuine answers.bluetoothInit c h
    split
    · rename_i c' hc'
      rwa [hc'] at hinit
    · rename_i c' hc'
      rw [hc'] at hinit
      simp only
      split
      · exact hinit
      · have hcreate := issueCommand_genuine .createAdv answers.create
          { c' with device := { c'.device with actvIdx := answers.idleActv } } hinit
        split
        · rename_i c'' hc''
          rwa [hc''] at hcreate
        · rename_i c'' hc''
          rw [hc''] at hcreate
          exact hcreate

/-- Starting waits for nothing that the controller cannot give. -/
theorem startAdvertising_genuine (answer : CmdAnswer) (c : DeviceCall) (h : GenuineCall c) :
    GenuineCall (startAdvertising answer c).2 := by
  have hstart := issueCommand_genuine .startAdv answer c h
  unfold startAdvertising
  simp only
  split
  · exact hstart
  · exact hstart

/-- Setting the payload waits for nothing that the controller cannot give. -/
theorem setAdvertisingPayload_genuine (payload : List UInt8) (answer : CmdAnswer)
    (c : DeviceCall) (h : GenuineCall c) :
    GenuineCall (setAdvertisingPayload payload answer c).2 := by
  unfold setAdvertisingPayload
  split
  · exact h
  · exact issueCommand_genuine .setAdvData answer c h

/-- Setting the scan response waits for nothing that the controller cannot give. -/
theorem setScanResponsePayload_genuine (payload : List UInt8) (answer : CmdAnswer)
    (c : DeviceCall) (h : GenuineCall c) :
    GenuineCall (setScanResponsePayload payload answer c).2 := by
  unfold setScanResponsePayload
  split
  · exact h
  · exact issueCommand_genuine .setRspData answer c h

/-- Advertising waits for nothing that the controller cannot give. -/
theorem advertisePayloads_genuine (answers : AdvertiseAnswers) (c : DeviceCall)
    (h : GenuineCall c) : GenuineCall (advertisePayloads answers c).2 := by
  unfold advertisePayloads
  simp only
  -- each exit leaves the waits of the calls before it
  split
  · exact h
  · split
    · exact h
    · rename_i payload _
      have hdata := setAdvertisingPayload_genuine payload answers.setAdvData c h
      split
      · rename_i c' hc'
        rwa [hc'] at hdata
      · rename_i c' hc'
        rw [hc'] at hdata
        split
        · exact startAdvertising_genuine answers.start c' hdata
        · rename_i response _
          have hrsp := setScanResponsePayload_genuine response answers.setRspData c' hdata
          split
          · rename_i c'' hc''
            rwa [hc''] at hrsp
          · rename_i c'' hc''
            rw [hc''] at hrsp
            exact startAdvertising_genuine answers.start c'' hrsp

/-- Every event of the device waits for nothing that the controller cannot give. -/
theorem perform_genuine (d : LocalDevice) (e : DeviceEvent) : GenuineCall (d.perform e) := by
  have hnew : GenuineCall { device := d } := fun a ha => absurd ha (by simp)
  -- the calls inside issue one command after another
  cases e with
  | advertise answers =>
      simp only [perform, advertise]
      have hinit := ensureInitialized_genuine answers.bluetoothInit _ hnew
      split
      · rename_i c hc
        rwa [hc] at hinit
      · rename_i c hc
        rw [hc] at hinit
        split
        · exact hinit
        · have hactivity := ensureActivity_genuine answers c hinit
          split
          · rename_i c' hc'
            rwa [hc'] at hactivity
          · rename_i c' hc'
            rw [hc'] at hactivity
            exact advertisePayloads_genuine answers c' hactivity
  | stopAdvertise answer =>
      have hstop := issueCommand_genuine .stopAdv answer _ hnew
      simp only [perform, stopAdvertise]
      split
      · exact hnew
      · split
        · exact hstop
        · exact hstop

/-- Every wait of an event hears its own command. -/
def Heard (d : LocalDevice) (e : DeviceEvent) : Prop :=
  ∀ a ∈ (d.perform e).waits, a.Heard

/-- Every wait of an event is honest. -/
def Honest (d : LocalDevice) (e : DeviceEvent) : Prop :=
  ∀ a ∈ (d.perform e).waits, a.Honest

/-- In a run whose waits hear their own commands, every wait is honest. -/
theorem waits_honest (d : LocalDevice) (es : List DeviceEvent) (h : Always step Heard d es) :
    Always step Honest d es :=
  h.mono fun d e hheard a ha => a.honest_of_heard (perform_genuine d e a ha) (hheard a ha)

/-- A window in which one callback comes, during the first pause. -/
def promptWindow (cb : CmdCallback) : CmdWindow where
  polls := fun i => if i = 0 then { pause := [cb] } else {}

/-- A prompt completion is there at every later look. -/
theorem prompt_before (cb : CmdCallback) (i : Nat) : (promptWindow cb).before (i + 1) = [cb] := by
  induction i with
  | zero => rfl
  | succ i ih => rw [CmdWindow.before, ih]; rfl

/-- A prompt completion is there when the status is read. -/
theorem prompt_atStatus (cb : CmdCallback) (i : Nat) :
    (promptWindow cb).atStatus (i + 1) = [cb] := by
  rw [CmdWindow.atStatus, prompt_before]
  rfl

/-- A prompt completion is found at the next look. -/
theorem prompt_finds (cb : CmdCallback) (r : CmdRecord) (i : Nat) :
    (promptWindow cb).Finds r cb.cmd (i + 1) := by
  rw [CmdWindow.Finds, CmdWindow.record, prompt_before]
  exact ⟨rfl, rfl⟩

/-- One callback is all that comes in a hundred turns. -/
theorem prompt_arrived (cb : CmdCallback) (turn : Option Nat) :
    (promptWindow cb).arrived commandTimeoutMs turn ⊆ [cb] := by
  have hturns : (commandTimeoutMs + (stepMs - 1)) / stepMs = 99 + 1 := by decide
  cases turn with
  | none =>
      rw [CmdWindow.arrived, hturns, prompt_before]
      exact List.Subset.refl _
  | some i =>
      cases i with
      | zero => exact List.nil_subset _
      | succ i =>
          rw [CmdWindow.arrived, prompt_atStatus]
          exact List.Subset.refl _

/-- A command whose own callback is the only one hears it. -/
theorem prompt_heard (a : AwaitedCmd) (param : Option Int)
    (hwindow : a.window = promptWindow ⟨a.number, a.cmd, param⟩) : a.Heard := by
  constructor
  · intro i _ hfinds _
    rw [hwindow] at hfinds ⊢
    cases i with
    | zero => exact absurd hfinds.1 Bool.false_ne_true
    | succ i => exact ⟨_, by rw [prompt_atStatus]; rfl, rfl, rfl⟩
  · intro cb _ _ _
    rw [hwindow]
    exact ⟨1, by unfold CmdWindow.InTime; decide, prompt_finds _ _ 0⟩
  · intro cb hcb cb' hcb' _ _
    rw [hwindow] at hcb hcb'
    rw [List.mem_singleton.1 (prompt_arrived _ none hcb),
      List.mem_singleton.1 (prompt_arrived _ none hcb')]

/-- The variables are reset, looked at once in vain, and hold the callback at the second
look. -/
theorem prompt_await (r : CmdRecord) (cb : CmdCallback) :
    (promptWindow cb).await r cb.cmd commandTimeoutMs =
      { succeeded := cb.param.getD bleFail == bleSuccess
        record := { done := true, status := cb.param.getD bleFail, lastCmd := cb.cmd }
        turn := some 1 } := by
  rw [CmdWindow.await, waitForCommand, if_pos (by decide)]
  simp only [CmdWindow.record, CmdWindow.before, CmdWindow.afterReset, promptWindow,
    CmdRecord.arrive_nil, Bool.false_and, Bool.false_eq_true, if_false]
  rw [waitForCommand, if_pos (by decide)]
  simp [CmdRecord.arrive, arduinoBleCmdCb, stepMs]

/-- The stack takes a command and completes it with success during the first pause. -/
def promptAnswer (number : Nat) (cmd : BleCmd) : CmdAnswer :=
  ⟨true, promptWindow ⟨number, cmd, some bleSuccess⟩⟩

/-- What such a command leaves in the variables. -/
def promptRecord (cmd : BleCmd) : CmdRecord :=
  ⟨true, bleSuccess, cmd⟩

/-- The wait for such a command. -/
def promptWait (before : CmdRecord) (number : Nat) (cmd : BleCmd) : AwaitedCmd :=
  ⟨number, cmd, before, (promptAnswer number cmd).window, ⟨true, promptRecord cmd, some 1⟩⟩

/-- A prompt wait has heard its own completion. -/
theorem promptWait_heard (before : CmdRecord) (number : Nat) (cmd : BleCmd) :
    (promptWait before number cmd).Heard :=
  prompt_heard _ (some bleSuccess) rfl

/-- A command with a prompt completion succeeds. -/
theorem issue_prompt (number : Nat) (cmd : BleCmd) (c : DeviceCall)
    (hissued : c.device.issued = number) :
    issueCommand cmd (promptAnswer number cmd) c =
      (true,
        { device := { c.device with record := promptRecord cmd, issued := number + 1 }
          waits := c.waits ++ [promptWait c.device.record number cmd] }) := by
  subst hissued
  have hawait : (promptAnswer c.device.issued cmd).window.await c.device.record cmd
      commandTimeoutMs = ⟨true, promptRecord cmd, some 1⟩ :=
    prompt_await c.device.record ⟨c.device.issued, cmd, some bleSuccess⟩
  unfold issueCommand
  simp only [hawait]
  rfl

/-- A new device with a name. -/
def named : LocalDevice := { deviceName := [66] }

/-- Everything works at once, from the creation of the activity on. -/
def promptStart : DeviceEvent :=
  .advertise
    { bluetoothInit := true
      finalized := true
      idleActv := 0
      create := promptAnswer 0 .createAdv
      setDevName := 1
      setAdvData := promptAnswer 1 .setAdvData
      setRspData := ⟨false, {}⟩
      start := promptAnswer 2 .startAdv }

/-- A stop whose callback comes at once. -/
def promptStop : DeviceEvent :=
  .stopAdvertise (promptAnswer 3 .stopAdv)

/-- What a start with prompt completions does. -/
theorem promptStart_performs :
    named.perform promptStart =
      { device :=
          { named with
            initialized := true
            advertising := true
            actvIdx := 0
            record := promptRecord .startAdv
            issued := 3 }
        waits :=
          [promptWait {} 0 .createAdv, promptWait (promptRecord .createAdv) 1 .setAdvData,
            promptWait (promptRecord .setAdvData) 2 .startAdv] } := by
  have haccepted : (promptAnswer 2 .startAdv).accepted = true := rfl
  simp [named, perform, promptStart, advertise, ensureInitialized, ensureActivity,
    unknownActvIdx, issue_prompt, advertisePayloads, LocalDevice.effectiveDeviceName,
    LocalDevice.advData, appendServiceUuidField, setAdvertisingPayload,
    LocalDevice.scanResponse, startAdvertising, bleMaxAdvDataLen, haccepted]

/-- What a stop with a prompt completion does. -/
theorem promptStop_performs (d : LocalDevice) (hactv : d.actvIdx ≠ unknownActvIdx)
    (hflag : d.advertising = true) (hissued : d.issued = 3) :
    d.perform promptStop =
      { device :=
          { d with advertising := false, record := promptRecord .stopAdv, issued := 4 }
        waits := [promptWait d.record 3 .stopAdv] } := by
  have haccepted : (promptAnswer 3 .stopAdv).accepted = true := rfl
  simp [perform, promptStop, stopAdvertise, hactv, hflag, issue_prompt, hissued, haccepted]

/-- The device is started, which takes three commands, and then stopped. -/
def startsAndStops : List DeviceEvent :=
  [promptStart, promptStop]

/-- Starting and stopping in turn is honest throughout. -/
theorem startsAndStops_honest : Always step Honest named startsAndStops := by
  refine waits_honest named startsAndStops ⟨fun a ha => ?_, fun a ha => ?_, trivial⟩
  · rw [promptStart_performs] at ha
    simp only [List.mem_cons, List.not_mem_nil, or_false] at ha
    rcases ha with rfl | rfl | rfl <;> exact promptWait_heard _ _ _
  · rw [step, promptStart_performs, promptStop_performs _ (by decide) rfl rfl] at ha
    rw [List.mem_singleton.1 ha]
    exact promptWait_heard _ _ _

/-- Nothing arrives before a look of a silent window. -/
theorem silent_before (i : Nat) : CmdWindow.before {} i = [] := by
  induction i with
  | zero => rfl
  | succ i ih => rw [CmdWindow.before, ih]; rfl

/-- Without any callback a wait runs out of time. -/
theorem silent_fails (r : CmdRecord) (cmd : BleCmd) :
    (CmdWindow.await {} r cmd commandTimeoutMs).succeeded = false := by
  cases CmdWindow.awaited_ends {} r cmd commandTimeoutMs with
  | found i _ _ hfinds _ _ _ =>
      rw [CmdWindow.Finds, CmdWindow.record, silent_before] at hfinds
      exact absurd hfinds.1 (by simp [CmdWindow.afterReset])
  | late _ _ hfailed => exact hfailed

/-- A wait takes the first callback of its kind for its own. -/
theorem prompt_succeeds (r : CmdRecord) (cb : CmdCallback) (h : cb.param = some bleSuccess) :
    ((promptWindow cb).await r cb.cmd commandTimeoutMs).succeeded = true := by
  cases CmdWindow.awaited_ends (promptWindow cb) r cb.cmd commandTimeoutMs with
  | found i _ _ hfinds _ _ hstatus =>
      cases i with
      | zero => exact absurd hfinds.1 (by simp [CmdWindow.record, CmdWindow.before, promptWindow,
          CmdWindow.afterReset])
      | succ i =>
          have hread := CmdWindow.statusAt_of_latest (promptWindow cb) r (i + 1) cb
            (by rw [prompt_atStatus]; rfl)
          rw [hstatus, hread, h]
          rfl
  | late hnone _ _ =>
      have htime : CmdWindow.InTime commandTimeoutMs 1 := by unfold CmdWindow.InTime; decide
      exact absurd (prompt_finds cb r 0) (hnone 1 (Nat.zero_le 1) htime)

/-- The answers of an `advertise` that gets no further than its activity. -/
def createOnly (window : CmdWindow) : AdvertiseAnswers where
  bluetoothInit := true
  finalized := true
  idleActv := 0
  create := ⟨true, window⟩
  setDevName := 256
  setAdvData := ⟨false, {}⟩
  setRspData := ⟨false, {}⟩
  start := ⟨false, {}⟩

/-- The first creation times out and completes during the wait of the second. -/
def createdTwice : List DeviceEvent :=
  [.advertise (createOnly {}),
    .advertise (createOnly (promptWindow ⟨0, .createAdv, some bleSuccess⟩))]

/-- The second wait succeeds with the completion of the first command. -/
theorem stale_completion_accepted : ¬ Always step Honest {} createdTwice := by
  intro h
  have hsecond := h.2.1
  -- the first call creates no activity, and its completion is still to come
  have hfirst : step {} (.advertise (createOnly {})) =
      { initialized := true, issued := 1
        record := (CmdWindow.await {} {} .createAdv commandTimeoutMs).record } := by
    simp [step, perform, advertise, ensureInitialized, ensureActivity, createOnly, issueCommand,
      unknownActvIdx, silent_fails]
  rw [hfirst] at hsecond
  have hsucceeds := prompt_succeeds (CmdWindow.await {} {} .createAdv commandTimeoutMs).record
    ⟨0, .createAdv, some bleSuccess⟩ rfl
  have hname : ∀ n, ¬ 256 = n % 256 := by
    intro n
    omega
  -- the second call takes it for the completion of its own command
  have hhonest := hsecond ⟨1, .createAdv, _, promptWindow ⟨0, .createAdv, some bleSuccess⟩, _⟩ (by
    simp [perform, advertise, ensureInitialized, ensureActivity, createOnly, issueCommand,
      unknownActvIdx, advertisePayloads, hsucceeds, hname]
    exact ⟨rfl, rfl⟩)
  rcases hhonest.exact.1 hsucceeds with ⟨cb, hcb, hown, -⟩
  rw [List.mem_singleton.1 (prompt_arrived _ _ hcb)] at hown
  exact absurd hown.1 (by decide)

end LocalDevice

end BLE

end ArduinoBeken
