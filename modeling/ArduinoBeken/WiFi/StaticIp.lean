import ArduinoBeken.Library.Run
import ArduinoBeken.WiFi.Mode

/-!
# The Static Address of the Station

`config` stores an address and arms it with the SDK, which uses it for the next
connection only: its handler of a disconnect event clears the flag. So the handler
that the library registers arms the address again behind the SDK's, and so do
`begin` and `reconnect` before they connect.

Calls are taken one SDK call at a time, each with the arguments made for it, any
number of calls at once, and the two handlers of a disconnect event are two events,
so that any of it may come between (`static_ip_kept`). Events are handled one after
another.

## Main definitions

* `IPAddress`, `NetifConfig`, `netifConfig`: The addresses, and what `config`
  makes of them.
* `Call`, `World`, `Event`: The calls under way, and what happens.
* `Keeps`: A station that connects behind a `config` has its address.
* `Sets`: What `bk_netif_static_ip` is relied on for.

## Theorems

* `armed_step`: One event keeps the address armed or about to be.
* `static_ip_kept`: The law along a run.
-/

namespace ArduinoBeken

namespace WiFi.StaticIp

/-- An address of either kind. -/
inductive IPAddress where
  | v4 (a b c d : UInt8)
  | v6 (groups : List (UInt8 × UInt8))
deriving DecidableEq, Repr

namespace IPAddress

/-- `IPAddress((uint32_t)0)`. -/
def zero : IPAddress := .v4 0 0 0 0

/-- `%02x`. -/
def hexByte (b : UInt8) : List Char :=
  [Nat.digitChar (b.toNat / 16), Nat.digitChar (b.toNat % 16)]

/-- `toString4` and `toString6`. -/
def toText : IPAddress → List Char
  | v4 a b c d =>
    ['.'].intercalate ([a, b, c, d].map fun octet => Nat.toDigits 10 octet.toNat)
  | v6 groups =>
    [':'].intercalate (groups.map fun group => hexByte group.1 ++ hexByte group.2)

end IPAddress

/-- `netif_ip4_config_t`. -/
structure NetifConfig where
  ip : List Char
  mask : List Char
  gateway : List Char
  dns : List Char
deriving DecidableEq, Repr

/-- `copyIpToNetifConfig` into a field of `NETIF_IP4_STR_LEN`. -/
def copyIpToNetifConfig (ip : IPAddress) : List Char :=
  ip.toText.take 15

/-- The configuration that `config` stores. Without a DNS server it is the
gateway. -/
def netifConfig (local_ip gateway subnet dns1 : IPAddress) : NetifConfig where
  ip := copyIpToNetifConfig local_ip
  gateway := copyIpToNetifConfig gateway
  mask := copyIpToNetifConfig subnet
  dns := copyIpToNetifConfig (if dns1 ≠ .zero then dns1 else gateway)

/-- Where a call is: the SDK call it is about to make. -/
inductive Call where
  | configRegister (cfg : NetifConfig)
  | configRegisterNetif (cfg : NetifConfig)
  | configStaticIp (cfg : NetifConfig)
  | onEventRegister
  | onEventRegisterNetif
  | beginStop (connect : Bool)
  | beginSetConfig (connect : Bool)
  | beginStaticIp
  | beginStart
  | reconnectStaticIp
  | reconnectConnect
  | disconnectDisconnect (wifioff : Bool)
  | disconnectStop
deriving DecidableEq, Repr

/-- The variables of the library with the calls under way, the flag of the SDK, and
a disconnect event that only the SDK has handled yet, with whether the handler of the
library was there to be called when the event came. `last` is history: what the last
finished `config` was about. -/
structure World where
  use_static : Bool := false
  static_config : NetifConfig := ⟨[], [], [], []⟩
  /-- `g_wifiEventsRegistered`. -/
  registered : Bool := false
  /-- `wifiGenericWifiEventCb` is among the handlers of the SDK. -/
  handler : Bool := false
  calls : List Call := []
  flag : Option NetifConfig := none
  handling : Option Bool := none
  last : Option NetifConfig := none
deriving DecidableEq, Repr

/-- A call begins, one of them makes its SDK call with a result, an event of the
station is handled by the SDK, and a disconnect event by the library. -/
inductive Event where
  | config (local_ip gateway subnet dns1 : IPAddress)
  | onEvent
  | begin (ssid passphrase : Option (List Char)) (connect : Bool)
  | reconnect
  | disconnect (wifioff : Bool)
  | proceed (i : Nat) (ok : Bool)
  | connected
  | disconnected
  | handled (late : Bool)
deriving DecidableEq, Repr

section Model

-- `bk_netif_static_ip`: the flag behind it, and whether it returns `BK_OK`.
variable (static_ip : Option NetifConfig → NetifConfig → Option NetifConfig × Bool)

namespace World

/-- `applyStaticIpIfConfigured`. -/
def applyStaticIpIfConfigured (w : World) : World :=
  if w.use_static then { w with flag := (static_ip w.flag w.static_config).1 } else w

/-- A call goes on with the next SDK call. -/
def goTo (w : World) (i : Nat) (c : Call) : World :=
  { w with calls := w.calls.set i c }

/-- A call returns. -/
def drop (w : World) (i : Nat) : World :=
  { w with calls := w.calls.eraseIdx i }

/-- The call makes its SDK call. -/
def advance (w : World) (i : Nat) (ok : Bool) : Call → World
  -- two registrations, of which the netif one is what the flag records
  | .configRegister cfg =>
    if ok then { w with handler := true }.goTo i (.configRegisterNetif cfg)
    else w.goTo i (.configStaticIp cfg)
  | .configRegisterNetif cfg =>
    { w with handler := ok, registered := ok }.goTo i (.configStaticIp cfg)
  -- the address is stored and set at once
  | .configStaticIp cfg =>
    { w with
      static_config := cfg, use_static := true
      flag := (static_ip w.flag cfg).1, last := some cfg }.drop i
  | .onEventRegister =>
    if ok then { w with handler := true }.goTo i .onEventRegisterNetif else w.drop i
  | .onEventRegisterNetif => { w with handler := ok, registered := ok }.drop i
  -- the station is stopped first, and the address set again before it starts
  | .beginStop connect => w.goTo i (.beginSetConfig connect)
  | .beginSetConfig connect => if ok && connect then w.goTo i .beginStaticIp else w.drop i
  | .beginStaticIp => (w.applyStaticIpIfConfigured static_ip).goTo i .beginStart
  | .beginStart => w.drop i
  | .reconnectStaticIp => (w.applyStaticIpIfConfigured static_ip).goTo i .reconnectConnect
  | .reconnectConnect => w.drop i
  -- a disconnect that keeps the station does not stop it
  | .disconnectDisconnect wifioff => if wifioff then w.goTo i .disconnectStop else w.drop i
  | .disconnectStop => w.drop i

end World

/-- A call of `config`, or the start of the station. -/
def step (w : World) : Event → World
  | .config local_ip gateway subnet dns1 =>
    let cfg := netifConfig local_ip gateway subnet dns1
    { w with
      calls := w.calls ++ [if w.registered then .configStaticIp cfg else .configRegister cfg] }
  | .onEvent =>
    if w.registered then w else { w with calls := w.calls ++ [.onEventRegister] }
  | .begin ssid passphrase connect =>
    if Mode.Radio.staArguments ssid passphrase then
      { w with calls := w.calls ++ [.beginStop connect] }
    else w
  | .reconnect => { w with calls := w.calls ++ [.reconnectStaticIp] }
  | .disconnect wifioff => { w with calls := w.calls ++ [.disconnectDisconnect wifioff] }
  | .proceed i ok =>
    -- the SDK answers one step of one call
    match w.calls[i]? with
    | some c => w.advance static_ip i ok c
    | none => w
  | .connected => w
  -- the SDK forgets the address, and the handler is told later
  | .disconnected =>
    match w.handling with
    | none => { w with flag := none, handling := some w.handler }
    | some _ => w
  -- the library sets it again, if its handler was there when the event came or is there now
  | .handled late =>
    match w.handling with
    | some due =>
      let w := { w with handling := none }
      if due || (w.handler && late) then w.applyStaticIpIfConfigured static_ip else w
    | none => w

end Model

/-! ### The law -/

/-- `bk_netif_static_ip` sets the flag with the addresses it is given. -/
def Sets (static_ip : Option NetifConfig → NetifConfig → Option NetifConfig × Bool) : Prop :=
  ∀ flag cfg, (static_ip flag cfg).1 = some cfg

/-- The calls that are about to register a handler. -/
def Call.registers : Call → Bool
  | .configRegister _ | .configRegisterNetif _ | .onEventRegister | .onEventRegisterNetif => true
  | _ => false

/-- A handler that is registered is. -/
def Registers (w : World) : Event → Prop
  | .proceed i ok => ∀ c, w.calls[i]? = some c → c.registers = true → ok = true
  | _ => True

/-- When the station connects, the flag is set with what the last `config` was
about. -/
def Keeps (w : World) : Event → Prop
  | .connected => w.handling = none → ∀ cfg, w.last = some cfg → w.flag = some cfg
  | _ => True

/-! ### One event -/

/-- The calls that have the handler registered. -/
def Call.waits : Call → Bool
  | .configRegisterNetif _ | .configStaticIp _ | .onEventRegisterNetif => true
  | _ => false

/-- The last configuration is stored, and the handler is there to arm it again. -/
def Stored (w : World) : Prop :=
  ∀ cfg, w.last = some cfg → w.use_static = true ∧ w.static_config = cfg ∧ w.handler = true

/-- It is armed too unless the handler is just to be called. -/
structure Armed (w : World) : Prop where
  stored : Stored w
  flag : ∀ cfg, w.last = some cfg → w.flag = some cfg ∨ w.handling = some true
  waiting : ∀ c ∈ w.calls, c.waits = true → w.handler = true
  registered : w.registered = true → w.handler = true

theorem armed_calls (w : World) (calls : List Call) (h : Armed w)
    (hcalls : ∀ c ∈ calls, c.waits = true → w.handler = true) :
    Armed { w with calls := calls } :=
  ⟨h.stored, h.flag, hcalls, h.registered⟩

/-- A call that begins. -/
theorem armed_enter (w : World) (c : Call) (h : Armed w)
    (hc : c.waits = true → w.handler = true) : Armed { w with calls := w.calls ++ [c] } := by
  refine armed_calls w _ h ?_
  intro c' hmem hwaits
  rcases List.mem_append.1 hmem with hold | hnew
  · exact h.waiting c' hold hwaits
  · rw [List.mem_singleton.1 hnew] at hwaits
    exact hc hwaits

theorem armed_goTo (w : World) (i : Nat) (c : Call) (h : Armed w)
    (hc : c.waits = true → w.handler = true) : Armed (w.goTo i c) := by
  refine armed_calls w _ h ?_
  intro c' hmem hwaits
  rcases List.mem_or_eq_of_mem_set hmem with hold | hnew
  · exact h.waiting c' hold hwaits
  · rw [hnew] at hwaits
    exact hc hwaits

theorem armed_drop (w : World) (i : Nat) (h : Armed w) : Armed (w.drop i) :=
  armed_calls w _ h fun c hmem => h.waiting c (List.mem_of_mem_eraseIdx hmem)

/-- More handlers do no harm. -/
theorem armed_register (w : World) (registered : Bool) (h : Armed w) :
    Armed { w with handler := true, registered := registered } :=
  ⟨fun cfg hlast => ⟨(h.stored cfg hlast).1, (h.stored cfg hlast).2.1, rfl⟩, h.flag,
    fun _ _ _ => rfl, fun _ => rfl⟩

variable (static_ip : Option NetifConfig → NetifConfig → Option NetifConfig × Bool)

/-- Arming again arms what is stored, so nothing is missing behind it. -/
theorem flag_apply (hsets : Sets static_ip) (w : World) (h : Stored w) (cfg : NetifConfig)
    (hlast : w.last = some cfg) : (w.applyStaticIpIfConfigured static_ip).flag = some cfg := by
  rcases h cfg hlast with ⟨huse, hconfig, -⟩
  rw [World.applyStaticIpIfConfigured, if_pos huse, ← hconfig]
  exact hsets w.flag w.static_config

theorem apply_frame (w : World) :
    w.applyStaticIpIfConfigured static_ip =
      { w with flag := (w.applyStaticIpIfConfigured static_ip).flag } := by
  unfold World.applyStaticIpIfConfigured
  split
  · rfl
  · rfl

theorem armed_apply (hsets : Sets static_ip) (w : World) (h : Armed w) :
    Armed (w.applyStaticIpIfConfigured static_ip) := by
  have hflag := flag_apply static_ip hsets w h.stored
  rw [apply_frame]
  exact ⟨h.stored, fun cfg hlast => Or.inl (hflag cfg hlast), h.waiting, h.registered⟩

/-- What a call does up to its next SDK call. -/
theorem armed_advance (hsets : Sets static_ip) (w : World) (i : Nat) (ok : Bool) (c : Call)
    (h : Armed w) (hi : w.calls[i]? = some c) (hok : c.registers = true → ok = true) :
    Armed (w.advance static_ip i ok c) := by
  -- by the step the call is at; only a registration that fails could lose the handler
  have hwaits := h.waiting c (List.mem_of_getElem? hi)
  cases c with
  | configRegister cfg =>
      have hyes : ok = true := hok rfl
      simp only [World.advance, hyes, if_true]
      exact armed_goTo _ i _ (armed_register w w.registered h) fun _ => rfl
  | configRegisterNetif cfg =>
      have hyes : ok = true := hok rfl
      simp only [World.advance, hyes]
      exact armed_goTo _ i _ (armed_register w true h) fun _ => rfl
  | configStaticIp cfg =>
      -- The handler is there by now, so that the address comes back behind a disconnect.
      have hhandler := hwaits rfl
      refine armed_drop _ i ⟨?_, ?_, h.waiting, h.registered⟩
      · intro cfg' hlast
        exact ⟨rfl, Option.some.inj hlast, hhandler⟩
      · intro cfg' hlast
        rw [← Option.some.inj hlast]
        exact Or.inl (hsets w.flag cfg)
  | onEventRegister =>
      have hyes : ok = true := hok rfl
      simp only [World.advance, hyes, if_true]
      exact armed_goTo _ i _ (armed_register w w.registered h) fun _ => rfl
  | onEventRegisterNetif =>
      have hyes : ok = true := hok rfl
      simp only [World.advance, hyes]
      exact armed_drop _ i (armed_register w true h)
  -- the calls from here on set the address again or leave all as it is
  | beginStop connect => exact armed_goTo w i _ h fun hno => (nomatch hno)
  | beginSetConfig connect =>
      simp only [World.advance]
      split
      · exact armed_goTo w i _ h fun hno => (nomatch hno)
      · exact armed_drop w i h
  | beginStaticIp =>
      exact armed_goTo _ i _ (armed_apply static_ip hsets w h) fun hno => (nomatch hno)
  | beginStart => exact armed_drop w i h
  | reconnectStaticIp =>
      exact armed_goTo _ i _ (armed_apply static_ip hsets w h) fun hno => (nomatch hno)
  | reconnectConnect => exact armed_drop w i h
  | disconnectDisconnect wifioff =>
      simp only [World.advance]
      split
      · exact armed_goTo w i _ h fun hno => (nomatch hno)
      · exact armed_drop w i h
  | disconnectStop => exact armed_drop w i h

theorem armed_step (hsets : Sets static_ip) (w : World) (e : Event) (h : Armed w)
    (hreg : Registers w e) : Armed (step static_ip w e) := by
  -- a call that enters changes nothing yet
  cases e with
  | config local_ip gateway subnet dns1 =>
      refine armed_enter w _ h ?_
      split
      · next hregistered => exact fun _ => h.registered hregistered
      · exact fun hno => (nomatch hno)
  | onEvent =>
      simp only [step]
      split
      · exact h
      · exact armed_enter w _ h fun hno => (nomatch hno)
  | begin ssid passphrase connect =>
      simp only [step]
      split
      · exact armed_enter w _ h fun hno => (nomatch hno)
      · exact h
  | reconnect => exact armed_enter w _ h fun hno => (nomatch hno)
  | disconnect wifioff => exact armed_enter w _ h fun hno => (nomatch hno)
  -- a step of a call that runs
  | proceed i ok =>
      simp only [step]
      cases hi : w.calls[i]? with
      | none => exact h
      | some c => exact armed_advance static_ip hsets w i ok c h hi (hreg c hi)
  | connected => exact h
  | disconnected =>
      simp only [step]
      split
      · -- The SDK clears the flag, and the handler of the library is still to come.
        refine ⟨h.stored, ?_, h.waiting, h.registered⟩
        intro cfg hlast
        exact Or.inr (congrArg some (h.stored cfg hlast).2.2)
      · exact h
  -- between the two events the address is not set, and the handler owes it
  | handled late =>
      simp only [step]
      cases hhandling : w.handling with
      | none => exact h
      | some due =>
          simp only []
          have hstored : Stored { w with handling := none } := h.stored
          split
          · -- Arming needs what is stored only, and not that the flag was set.
            have hflag := flag_apply static_ip hsets _ hstored
            rw [apply_frame]
            exact ⟨hstored, fun cfg hlast => Or.inl (hflag cfg hlast), h.waiting, h.registered⟩
          · next hnot =>
            refine ⟨hstored, ?_, h.waiting, h.registered⟩
            intro cfg hlast
            rcases h.flag cfg hlast with hset | hdue
            · exact Or.inl hset
            · rw [hhandling] at hdue
              have hyes : due = true := Option.some.inj hdue
              exact absurd (by rw [hyes, Bool.true_or]) hnot

/-- Along every interleaving of the calls, SDK call by SDK call, with the handling of
connect and disconnect events, a station that connects behind a `config` does so with
the flag set to its addresses, if the handlers were registered. -/
theorem static_ip_kept (hsets : Sets static_ip) (es : List Event)
    (hreg : EventRun.Always (step static_ip) Registers {} es) :
    EventRun.Always (step static_ip) Keeps {} es := by
  have hstart : Armed {} :=
    ⟨fun cfg hno => (nomatch hno), fun cfg hno => (nomatch hno), fun c hno => (nomatch hno),
      fun hno => (nomatch hno)⟩
  refine EventRun.always_of_inv (I := Armed) ?_
    (fun w e h hok => armed_step static_ip hsets w e h hok) hstart hreg
  intro w e h _
  cases e with
  | connected =>
      intro hidle cfg hlast
      rcases h.flag cfg hlast with hset | hdue
      · exact hset
      · rw [hidle] at hdue
        exact (nomatch hdue)
  | _ => exact True.intro

/-- An address is configured and a `begin` is under way when the disconnect of an
earlier connection is handled. The station connects with the address. -/
theorem late_disconnect_keeps :
    EventRun.Always (step fun _ cfg => (some cfg, true)) Keeps {}
      [.config (.v4 10 0 0 2) (.v4 10 0 0 1) (.v4 255 255 255 0) .zero,
        .proceed 0 true, .proceed 0 true, .proceed 0 true,
        .begin (some ['a']) none true, .proceed 0 true, .proceed 0 true, .proceed 0 true,
        .disconnected, .proceed 0 true, .handled false, .connected] := by
  refine static_ip_kept _ (fun _ _ => rfl) _ ?_
  refine ⟨True.intro, ?_, ?_, ?_, True.intro, ?_, ?_, ?_, True.intro, ?_, True.intro, True.intro,
    True.intro⟩
  all_goals exact fun _ _ _ => rfl

end WiFi.StaticIp

end ArduinoBeken
