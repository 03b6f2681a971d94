import ArduinoBeken.Library.Run

/-!
# Mode and Radio

`_mode` says which of the two interfaces are meant to run. It is set in three
files: `WiFiGeneric` (`mode`, `enableSTA`, `enableAP`), `WiFiSTA` (`begin`,
`config`, `disconnect`) and `WiFiAP` (`softAP`, `softAPConfig`,
`softAPdisconnect`), each of which starts and stops interfaces in its own
order.

Whether an interface runs is a matter of the SDK, and history here: it does from
a successful start to a successful stop. The mode covers what runs as long as
the calls that take a bit out of it stop the interface (`StopsFirst`), which all
of them try but for `disconnect`, and it is lost otherwise (`covered_iff`).

## Main definitions

* `Radio`: The mode, and what runs.
* `mode`, `enableSTA`, `enableAP`, `softAP`, `softAPConfig`, `softAPdisconnect`,
  `begin`, `config`, `disconnect`: The calls.
* `Covered`, `StaysCovered`: The law.
* `StopsFirst`: What runs is stopped before its bit goes.

## Theorems

* `enableSTA_spec`, `enableAP_spec`, `setMode_spec`: What the parts do.
* `bit_covers_iff`: One interface.
* `covered_step_iff`: One call.
* `covered_iff`: The law along a run.
-/

namespace ArduinoBeken

namespace WiFi.Mode

/-- `WiFiMode_t`, bit by bit. -/
structure WiFiMode where
  sta : Bool
  ap : Bool
deriving DecidableEq, Repr

/-- `WIFI_OFF`. -/
def WiFiMode.off : WiFiMode := ⟨false, false⟩

/-- The mode that the library keeps, with what runs as history. -/
structure Radio where
  mode : WiFiMode := .off
  /-- `s_apIpConfigured`. -/
  apIpConfigured : Bool := false
  /-- History: the station was started and not stopped since. -/
  staUp : Bool := false
  /-- History: the access point was started and not stopped since. -/
  apUp : Bool := false
deriving DecidableEq, Repr

namespace Radio

/-! ### The SDK -/

/-- `bk_wifi_sta_stop`, which may fail. -/
def staStop (r : Radio) (ok : Bool) : Radio :=
  { r with staUp := r.staUp && !ok }

/-- `bk_wifi_ap_stop`, which may fail. -/
def apStop (r : Radio) (ok : Bool) : Radio :=
  { r with apUp := r.apUp && !ok }

/-- `bk_wifi_sta_start`, which may fail. -/
def staStart (r : Radio) (ok : Bool) : Radio :=
  { r with staUp := r.staUp || ok }

/-- `bk_wifi_ap_start`, which may fail. -/
def apStart (r : Radio) (ok : Bool) : Radio :=
  { r with apUp := r.apUp || ok }

/-! ### `WiFiGeneric` -/

/-- `enableSTA`. The station is stopped if its bit is taken, and started elsewhere. -/
def enableSTA (r : Radio) (enable stop : Bool) : Radio :=
  if enable then { r with mode := { r.mode with sta := true } }
  else if r.mode.sta then
    let r := r.staStop stop
    { r with mode := { r.mode with sta := false } }
  else r

/-- `enableAP`, likewise. -/
def enableAP (r : Radio) (enable stop : Bool) : Radio :=
  if enable then { r with mode := { r.mode with ap := true } }
  else if r.mode.ap then
    let r := r.apStop stop
    { r with mode := { r.mode with ap := false } }
  else r

/-- `mode`, with the results of the stops if it comes to them. -/
def setMode (r : Radio) (m : WiFiMode) (staStop apStop : Bool) : Radio :=
  if m = .off then
    let r := if r.mode.sta then r.staStop staStop else r
    let r := if r.mode.ap then r.apStop apStop else r
    { r with mode := .off }
  else (r.enableSTA m.sta staStop).enableAP m.ap apStop

/-! ### `WiFiAP` -/

/-- The arguments with which `softAP` goes on. -/
def apArguments (ssid passphrase : Option (List Char)) : Bool :=
  (ssid.getD []).length ≠ 0 &&
    !(0 < (passphrase.getD []).length && (passphrase.getD []).length < 8)

/-- `softAP`: the bit is set before the configuration is, and stays if that fails. -/
def softAP (r : Radio) (ssid passphrase : Option (List Char)) (setConfig start : Bool) : Radio :=
  if apArguments ssid passphrase then
    let r := r.enableAP true true
    if setConfig then r.apStart start else r
  else r

/-- `softAPConfig`. -/
def softAPConfig (r : Radio) (setIp : Bool) : Radio :=
  let r := r.enableAP true true
  if setIp then { r with apIpConfigured := true } else r

/-- `softAPdisconnect`, which may stop the access point twice. -/
def softAPdisconnect (r : Radio) (wifioff stop again : Bool) : Radio :=
  let r := { r.apStop stop with apIpConfigured := false }
  if wifioff then r.enableAP false again else r

/-! ### `WiFiSTA` -/

/-- The arguments with which `begin` goes on. -/
def staArguments (ssid passphrase : Option (List Char)) : Bool :=
  (ssid.getD []).length ≠ 0 && (ssid.getD []).length ≤ 32 && (passphrase.getD []).length ≤ 64

/-- `begin` of the station, which stops it first. -/
def begin (r : Radio) (ssid passphrase : Option (List Char)) (connect stop setConfig start : Bool) :
    Radio :=
  let r := r.enableSTA true true
  if staArguments ssid passphrase then
    let r := r.staStop stop
    if setConfig && connect then r.staStart start else r
  else r

/-- `config` of the station. -/
def config (r : Radio) : Radio :=
  r.enableSTA true true

/-- `disconnect`, which takes the whole mode off with `wifioff`. -/
def disconnect (r : Radio) (wifioff stop : Bool) : Radio :=
  if wifioff then { r.staStop stop with mode := .off } else r

end Radio

/-- The calls, with the results of the SDK. -/
inductive Event where
  | mode (m : WiFiMode) (staStop apStop : Bool)
  | enableSTA (enable stop : Bool)
  | enableAP (enable stop : Bool)
  | softAP (ssid passphrase : Option (List Char)) (setConfig start : Bool)
  | softAPConfig (setIp : Bool)
  | softAPdisconnect (wifioff stop again : Bool)
  | begin (ssid passphrase : Option (List Char)) (connect stop setConfig start : Bool)
  | config
  | disconnect (wifioff stop : Bool)
deriving DecidableEq, Repr

/-- One call. -/
def step (r : Radio) : Event → Radio
  | .mode m staStop apStop => r.setMode m staStop apStop
  | .enableSTA enable stop => r.enableSTA enable stop
  | .enableAP enable stop => r.enableAP enable stop
  | .softAP ssid passphrase setConfig start => r.softAP ssid passphrase setConfig start
  | .softAPConfig setIp => r.softAPConfig setIp
  | .softAPdisconnect wifioff stop again => r.softAPdisconnect wifioff stop again
  | .begin ssid passphrase connect stop setConfig start =>
    r.begin ssid passphrase connect stop setConfig start
  | .config => r.config
  | .disconnect wifioff stop => r.disconnect wifioff stop

/-! ### The law -/

/-- What runs has its bit in the mode. -/
structure Covered (r : Radio) : Prop where
  sta : r.staUp = true → r.mode.sta = true
  ap : r.apUp = true → r.mode.ap = true

/-- Nothing runs. -/
def Silent (r : Radio) : Prop :=
  r.staUp = false ∧ r.apUp = false

/-- The mode covers what runs behind a call, so nothing runs if the mode is off,
and `mode(WIFI_OFF)` leaves nothing running. -/
structure StaysCovered (r : Radio) (e : Event) : Prop where
  covered : Covered (step r e)
  silent : (step r e).mode = .off → Silent (step r e)
  off : ∀ staStop apStop, e = .mode .off staStop apStop → Silent (step r e)

/-- An interface that a call takes out of the mode is stopped by it, if it
runs. -/
def StopsFirst (r : Radio) : Event → Prop
  | .mode m staStop apStop =>
    (m.sta = false → r.staUp = true → staStop = true) ∧
      (m.ap = false → r.apUp = true → apStop = true)
  | .enableSTA enable stop => enable = false → r.staUp = true → stop = true
  | .enableAP enable stop => enable = false → r.apUp = true → stop = true
  | .softAPdisconnect wifioff stop again =>
    wifioff = true → r.apUp = true → stop = true ∨ again = true
  | .disconnect wifioff stop =>
    wifioff = true → (r.staUp = true → stop = true) ∧ r.apUp = false
  | _ => True

/-! ### One call -/

/-- An interface is switched on or off: its bit is as asked for, and it runs on
unless it is stopped. -/
theorem enableSTA_spec (r : Radio) (enable stop : Bool) (h : r.staUp = true → r.mode.sta = true) :
    (r.enableSTA enable stop).mode = { r.mode with sta := enable } ∧
      (r.enableSTA enable stop).apUp = r.apUp ∧
      ((r.enableSTA enable stop).staUp = true ↔
        r.staUp = true ∧ (enable = false → stop = false)) := by
  unfold Radio.enableSTA
  cases enable with
  | true =>
      refine ⟨rfl, rfl, ?_⟩
      simp only [if_true, Bool.true_eq_false, false_implies, and_true]
  | false =>
      cases hmode : r.mode.sta with
      | true =>
          refine ⟨rfl, rfl, ?_⟩
          simp only [Radio.staStop, if_true, Bool.false_eq_true, if_false, Bool.and_eq_true,
            Bool.not_eq_true', forall_const]
      | false =>
          -- Without its bit the interface does not run.
          have hdown : r.staUp = false := by
            rw [← Bool.not_eq_true]
            intro hup
            exact absurd ((h hup).symm.trans hmode) (by decide)
          simp only [Bool.false_eq_true, if_false, hdown, false_and, and_true]
          rw [← hmode]

theorem enableAP_spec (r : Radio) (enable stop : Bool) (h : r.apUp = true → r.mode.ap = true) :
    (r.enableAP enable stop).mode = { r.mode with ap := enable } ∧
      (r.enableAP enable stop).staUp = r.staUp ∧
      ((r.enableAP enable stop).apUp = true ↔
        r.apUp = true ∧ (enable = false → stop = false)) := by
  unfold Radio.enableAP
  cases enable with
  | true =>
      refine ⟨rfl, rfl, ?_⟩
      simp only [if_true, Bool.true_eq_false, false_implies, and_true]
  | false =>
      -- without the bit the access point is off, and stopping it changes nothing
      cases hmode : r.mode.ap with
      | true =>
          refine ⟨rfl, rfl, ?_⟩
          simp only [Radio.apStop, if_true, Bool.false_eq_true, if_false, Bool.and_eq_true,
            Bool.not_eq_true', forall_const]
      | false =>
          have hdown : r.apUp = false := by
            rw [← Bool.not_eq_true]
            intro hup
            exact absurd ((h hup).symm.trans hmode) (by decide)
          simp only [Bool.false_eq_true, if_false, hdown, false_and, and_true]
          rw [← hmode]

/-- `mode` leaves the mode it is given, and what it takes out of it runs on
unless it is stopped. -/
theorem setMode_spec (r : Radio) (m : WiFiMode) (staStop apStop : Bool) (h : Covered r) :
    (r.setMode m staStop apStop).mode = m ∧
      ((r.setMode m staStop apStop).staUp = true ↔
        r.staUp = true ∧ (m.sta = false → staStop = false)) ∧
      ((r.setMode m staStop apStop).apUp = true ↔
        r.apUp = true ∧ (m.ap = false → apStop = false)) := by
  unfold Radio.setMode
  by_cases hoff : m = .off
  · -- both interfaces go down
    subst hoff
    rw [if_pos rfl]
    have hsta := h.sta
    have hap := h.ap
    refine ⟨rfl, ?_, ?_⟩
    · cases hbit : r.mode.sta <;> cases r.mode.ap <;> grind [Radio.staStop, Radio.apStop,
        WiFiMode.off]
    · cases r.mode.sta <;> cases hbit : r.mode.ap <;> grind [Radio.staStop, Radio.apStop,
        WiFiMode.off]
  · rw [if_neg hoff]
    -- the station first, and then the access point
    rcases enableSTA_spec r m.sta staStop h.sta with ⟨hmode, hapUp, hstaUp⟩
    have hap : (r.enableSTA m.sta staStop).apUp = true →
        (r.enableSTA m.sta staStop).mode.ap = true := by
      rw [hapUp, hmode]
      exact h.ap
    rcases enableAP_spec _ m.ap apStop hap with ⟨hmode', hstaUp', hapUp'⟩
    refine ⟨?_, ?_, ?_⟩
    · rw [hmode', hmode]
    · rw [hstaUp', hstaUp]
    · rw [hapUp', hapUp]

/-- What runs on unless it is stopped is covered by its new bit just when the call stops what
it takes the bit from. -/
theorem bit_covers_iff {up up' bit stop : Bool}
    (hup : up' = true ↔ up = true ∧ (bit = false → stop = false)) :
    (up' = true → bit = true) ↔ (bit = false → up = true → stop = true) := by
  rw [hup]
  cases bit with
  | true => exact ⟨fun _ h => absurd h.symm Bool.false_ne_true, fun _ _ => rfl⟩
  | false =>
      refine ⟨fun h _ hrun => ?_, fun h hleft => ?_⟩
      · cases stop with
        | true => rfl
        | false => exact h ⟨hrun, fun _ => rfl⟩
      · exact (hleft.2 rfl).symm.trans (h rfl hleft.1)

theorem covered_bits_iff (r : Radio) :
    Covered r ↔ (r.staUp = true → r.mode.sta = true) ∧ (r.apUp = true → r.mode.ap = true) :=
  ⟨fun h => ⟨h.sta, h.ap⟩, fun h => ⟨h.1, h.2⟩⟩

/-- A stop that may fail takes out what runs, or does not. -/
theorem running_stopped_iff (up stop : Bool) :
    (up && !stop) = true ↔ up = true ∧ stop = false := by
  rw [Bool.and_eq_true, Bool.not_eq_true']

/-- The first stop of `softAPdisconnect` leaves the mode as it is, and the second one takes
the bit out. -/
theorem covered_softAPdisconnect_iff (r : Radio) (stop again : Bool) (h : Covered r) :
    Covered (r.softAPdisconnect true stop again) ↔
      (r.apUp = true → stop = true ∨ again = true) := by
  have hstopped : (r.apStop stop).apUp = true → r.mode.ap = true := fun hup =>
    h.ap ((running_stopped_iff _ _).1 hup).1
  rcases enableAP_spec { r.apStop stop with apIpConfigured := false } false again hstopped
    with ⟨hmode, hstaUp, hapUp⟩
  simp only [Radio.softAPdisconnect, if_true]
  rw [covered_bits_iff, hmode, hstaUp]
  refine (and_iff_right h.sta).trans ((bit_covers_iff hapUp).trans ?_)
  refine ⟨fun hlaw hup => ?_, fun hlaw _ hup => ?_⟩
  · cases hstop : stop with
    | true => exact Or.inl rfl
    | false => exact Or.inr (hlaw rfl ((running_stopped_iff _ _).2 ⟨hup, hstop⟩))
  · have hrun := (running_stopped_iff _ _).1 hup
    exact (hlaw hrun.1).resolve_left (Bool.eq_false_iff.1 hrun.2)

/-- `disconnect` clears the mode, but stops only the station. -/
theorem covered_disconnect_iff (r : Radio) (stop : Bool) :
    Covered (r.disconnect true stop) ↔ (r.staUp = true → stop = true) ∧ r.apUp = false := by
  have hstaUp : (r.disconnect true stop).staUp = true ↔
      r.staUp = true ∧ (false = false → stop = false) :=
    (running_stopped_iff _ _).trans
      (and_congr_right' ⟨fun hstop _ => hstop, fun hstop => hstop rfl⟩)
  rw [covered_bits_iff]
  refine and_congr ((bit_covers_iff hstaUp).trans (forall_prop_of_true rfl)) ?_
  refine ⟨fun hlaw => ?_, fun hdown hup => absurd (hup.symm.trans hdown) (by decide)⟩
  exact Bool.eq_false_iff.2 fun hup => absurd (hlaw hup) Bool.false_ne_true

/-- The mode covers what runs behind a call if and only if the call stops what
it takes out. -/
theorem covered_step_iff (r : Radio) (e : Event) (h : Covered r) :
    Covered (step r e) ↔ StopsFirst r e := by
  have hsta := h.sta
  have hap := h.ap
  -- by the call; one that only sets bits covers what it starts
  cases e with
  | mode m staStop apStop =>
      rcases setMode_spec r m staStop apStop h with ⟨hmode, hstaUp, hapUp⟩
      rw [step, covered_bits_iff, hmode]
      exact and_congr (bit_covers_iff hstaUp) (bit_covers_iff hapUp)
  | enableSTA enable stop =>
      rcases enableSTA_spec r enable stop hsta with ⟨hmode, hapUp, hstaUp⟩
      rw [step, covered_bits_iff, hmode, hapUp]
      exact (and_iff_left hap).trans (bit_covers_iff hstaUp)
  | enableAP enable stop =>
      rcases enableAP_spec r enable stop hap with ⟨hmode, hstaUp, hapUp⟩
      rw [step, covered_bits_iff, hmode, hstaUp]
      exact (and_iff_right hsta).trans (bit_covers_iff hapUp)
  | softAP ssid passphrase setConfig start =>
      refine ⟨fun _ => True.intro, fun _ => ?_⟩
      simp only [step, Radio.softAP, Radio.enableAP, if_true]
      split
      · split
        · exact ⟨hsta, fun _ => rfl⟩
        · exact ⟨hsta, fun _ => rfl⟩
      · exact h
  | softAPConfig setIp =>
      refine ⟨fun _ => True.intro, fun _ => ?_⟩
      simp only [step, Radio.softAPConfig, Radio.enableAP, if_true]
      split
      · exact ⟨hsta, fun _ => rfl⟩
      · exact ⟨hsta, fun _ => rfl⟩
  | softAPdisconnect wifioff stop again =>
      cases wifioff with
      | false =>
          -- without `wifioff` the mode keeps its bit, whether the stop succeeds or not
          refine ⟨fun _ hoff => absurd hoff Bool.false_ne_true, fun _ => ⟨hsta, fun hup => ?_⟩⟩
          exact hap ((running_stopped_iff _ _).1 hup).1
      | true =>
          exact (covered_softAPdisconnect_iff r stop again h).trans
            ⟨fun hlaw _ => hlaw, fun hlaw => hlaw rfl⟩
  | begin ssid passphrase connect stop setConfig start =>
      refine ⟨fun _ => True.intro, fun _ => ?_⟩
      simp only [step, Radio.begin, Radio.enableSTA, if_true]
      split
      · split
        · exact ⟨fun _ => rfl, hap⟩
        · exact ⟨fun _ => rfl, hap⟩
      · exact ⟨fun _ => rfl, hap⟩
  | config => exact ⟨fun _ => True.intro, fun _ => ⟨fun _ => rfl, hap⟩⟩
  | disconnect wifioff stop =>
      cases wifioff with
      | false => exact ⟨fun _ hoff => absurd hoff Bool.false_ne_true, fun _ => h⟩
      | true =>
          exact (covered_disconnect_iff r stop).trans
            ⟨fun hlaw _ => hlaw, fun hlaw => hlaw rfl⟩

/-- A mode that is off covers nothing. -/
theorem silent_of_covered (r : Radio) (h : Covered r) (hoff : r.mode = .off) : Silent r := by
  refine ⟨?_, ?_⟩
  · rw [← Bool.not_eq_true]
    intro hup
    exact absurd ((h.sta hup).symm.trans (congrArg WiFiMode.sta hoff)) (by decide)
  · rw [← Bool.not_eq_true]
    intro hup
    exact absurd ((h.ap hup).symm.trans (congrArg WiFiMode.ap hoff)) (by decide)

theorem staysCovered_iff (r : Radio) (e : Event) (h : Covered r) :
    StaysCovered r e ↔ StopsFirst r e := by
  refine ⟨fun hlaw => (covered_step_iff r e h).1 hlaw.covered, ?_⟩
  intro hstops
  have hcov := (covered_step_iff r e h).2 hstops
  refine ⟨hcov, silent_of_covered _ hcov, ?_⟩
  rintro staStop apStop rfl
  exact silent_of_covered _ hcov (setMode_spec r .off staStop apStop h).1

/-- Along every run of calls, with any results of the SDK, the mode covers what
runs if and only if each call stops what it takes out of the mode. -/
theorem covered_iff (es : List Event) :
    EventRun.Always step StaysCovered {} es ↔ EventRun.Always step StopsFirst {} es := by
  have hstart : Covered {} := ⟨fun h => h, fun h => h⟩
  exact EventRun.always_iff_of_good (fun r e _ hlaw => hlaw.covered)
    (fun r e h => staysCovered_iff r e h) hstart es

/-- The station is switched off while the access point runs. -/
theorem disconnect_forgets_ap : ¬ ∀ es, EventRun.Always step StaysCovered {} es := by
  intro hall
  have hrun := hall [.softAP (some "net".toList) none true true, .disconnect true true]
  exact absurd (hrun.2.1.covered.ap rfl) (by decide)

end WiFi.Mode

end ArduinoBeken
