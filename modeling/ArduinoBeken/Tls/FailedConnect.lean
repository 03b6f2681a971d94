import ArduinoBeken.Library.Run
import ArduinoBeken.Tls.StartStages

/-!
# What a Failed Connect Leaves

After `connect` returned zero a sketch takes the client for disconnected: it
expects `connected()` to be false, and nothing it writes to go anywhere, until
a connect succeeds. A connect that starts out from a disconnected client keeps
this. On a connected one the flag is cleared by `stop`, and `stop` clears it
only when it finds a socket; the failures that come before there is one, or
after it was closed, leave the flag of the old connection standing.

## Main definitions

* `Attempted`: A device that remembers whether its last connect failed.
* `StaysDown`: The law of one call.
* `Overlaps`: A connect on a connected client that fails without a socket.

## Theorems

* `connect_staysDown_iff`: The law of a connect fails on the overlaps only.
* `step_sound`: Calls that obey the law keep a failed client disconnected.
* `stays_down_iff`: The law holds along exactly the runs without overlaps.
-/

namespace ArduinoBeken.Tls

open Net (Outcome)
open EventRun (run Always)

/-- A device that remembers whether the last connect failed. -/
structure Attempted extends Device where
  failed : Bool := false

/-- A client with the flag up has a socket. -/
def WiFiClientSecure.Sane (c : WiFiClientSecure) : Prop :=
  c.connected = true → 0 ≤ c.sslclient.socket

namespace WiFiClientSecure

theorem sane_stop (c : WiFiClientSecure) : c.stop.client.Sane := by
  intro _
  have hsock : c.stop.client.sslclient.socket = 0 := by rw [stop_client]
  omega

theorem stop_connected (c : WiFiClientSecure) (h : c.Sane) : c.stop.client.connected = false := by
  rw [stop_client]
  by_cases hsock : 0 ≤ c.sslclient.socket
  · simp only [if_pos hsock]
  · simp only [if_neg hsock]
    by_contra hc
    exact hsock (h (by simpa using hc))

theorem sane_giveUp (c : WiFiClientSecure) (ret : Int) (b : Attempt) :
    (c.giveUp ret b).client.Sane :=
  sane_stop _

/-- Giving up takes the flag down when there is a socket to close. -/
theorem giveUp_connected (c : WiFiClientSecure) (ret : Int) (b : Attempt) :
    (c.giveUp ret b).client.connected =
      if 0 ≤ b.ctx.socket then false else c.connected := by
  simp only [giveUp, stop_client]

theorem sane_startClient (c : WiFiClientSecure) (env : ConnectEnv) (crts : Option Bundle)
    (args : SslArgs) : (c.startClient env crts args).client.Sane := by
  cases startClient_started c env crts args with
  | refused _ hout => exact hout ▸ sane_giveUp c _ _
  | failed ret b _ _ _ _ hout => exact hout ▸ sane_giveUp c ret b
  | unverified _ _ _ _ _ hout => exact hout ▸ sane_giveUp c _ _
  | succeeded b _ hopen _ _ hout =>
      rw [hout]
      exact fun _ => hopen.socket ▸ hopen.fd

theorem sane_io (c d : WiFiClientSecure) (calls : List Net.SocketCall) (h : IoSteps c calls d)
    (hc : c.Sane) : d.Sane :=
  h.keeps Sane (fun _ _ hc => hc) (fun c _ => sane_stop c) c d calls hc

/-- A disconnected client stays so, whatever is read from it or written to. -/
theorem disconnected_io (c d : WiFiClientSecure) (calls : List Net.SocketCall)
    (h : IoSteps c calls d) (hc : c.connected = false) : d.connected = false := by
  refine h.keeps (fun c => c.connected = false) (fun _ _ hc => hc) (fun c hc => ?_) c d calls hc
  rw [stop_client]
  simp only [hc, ite_self]

end WiFiClientSecure

namespace Attempted

/-- A call, with whether a connect has failed as history. -/
def step (s : Attempted) (call : Call) : Attempted :=
  let out := s.toDevice.perform call
  { toDevice := out.client
    failed :=
      match call with
      | .connect _ _ => decide (out.result.ret = 0)
      | _ => s.failed }

/-- The law of a call: a connect that returns zero leaves the client
disconnected, and a write after one hands no byte to mbedTLS. -/
def StaysDown (s : Attempted) (call : Call) : Prop :=
  match call with
  | .connect _ _ =>
      (s.toDevice.perform call).result.ret = 0 →
        (s.toDevice.perform call).client.client.isConnected = false
  | .write _ => s.failed = true →
      (s.toDevice.perform call).calls = [] ∧ (s.toDevice.perform call).result.ret = 0
  | .connected => s.failed = true → (s.toDevice.perform call).result.ret = 0
  | _ => True

/-- A connect on a connected client fails in the lookup, or without a socket
that reached the server. -/
def Overlaps (s : Attempted) (env : ConnectEnv) (overload : Overload) : Prop :=
  s.client.connected = true ∧
    match s.client.arguments env overload with
    | none => True
    | some args => ¬ args.noTrust ∧ (env.lwipSocket < 0 ∨ env.tcpFails)

/-- A connect does not meet what a failed one has left. -/
def ConnectsApart (s : Attempted) : Call → Prop
  | .connect env overload => ¬ s.Overlaps env overload
  | _ => True

/-- The flag and the memory of a failed connect agree. -/
structure Sound (s : Attempted) : Prop where
  sane : s.client.Sane
  down : s.failed = true → s.client.connected = false

/-- A connect leaves the flag up after a failure exactly when it overlaps. -/
theorem startClient_down_iff (c : WiFiClientSecure) (env : ConnectEnv) (crts : Option Bundle)
    (args : SslArgs) (hc : c.Sane) :
    ((c.startClient env crts args).result = 0 →
      (c.startClient env crts args).client.connected = false) ↔
    ¬ (c.connected = true ∧ ¬ args.noTrust ∧ (env.lwipSocket < 0 ∨ env.tcpFails)) := by
  -- by the way the start ends: refused, failed in a stage, not verified, or connected
  cases startClient_started c env crts args with
  | refused htrust hout =>
      refine ⟨fun _ h => h.2.1 htrust, fun _ _ => ?_⟩
      rw [hout]
      exact WiFiClientSecure.stop_connected _ hc
  | failed ret b htrust hret hstages hexit hout =>
      rw [hout, WiFiClientSecure.giveUp_connected]
      -- a failed stage has no socket, a socket without TCP, or a session that was not set up
      cases hexit with
      | noSocket hfd hsock hcalls =>
          rw [hsock, if_neg (by omega)]
          simp [WiFiClientSecure.giveUp, htrust, hfd]
      | noTcp hfd htcp hsock hcalls =>
          rw [hsock, if_neg (by omega)]
          simp [WiFiClientSecure.giveUp, htrust, htcp]
      | noSession hfd htcp hsock hcalls =>
          rw [hsock, if_pos hfd]
          refine ⟨?_, fun _ _ => rfl⟩
          rintro - ⟨-, -, hsocket | htcp'⟩
          · omega
          · exact htcp htcp'
  | unverified b htrust hopen hstages hflags hout =>
      -- stop_ssl_socket has zeroed the context, so stop finds descriptor 0
      rw [hout, WiFiClientSecure.giveUp_connected]
      refine ⟨?_, fun _ _ => rfl⟩
      rintro - ⟨-, -, hsocket | htcp⟩
      · exact absurd hopen.fd (by omega)
      · exact hopen.tcp htcp
  -- a connect that succeeds does not answer 0
  | succeeded b htrust hopen hflags hstages hout =>
      refine ⟨?_, fun _ h => ?_⟩
      · rintro - ⟨-, -, hsocket | htcp⟩
        · exact absurd hopen.fd (by omega)
        · exact hopen.tcp htcp
      · rw [hout] at h
        exact absurd h (by simp)

theorem connect_staysDown_iff (s : Attempted) (hs : s.client.Sane) (env : ConnectEnv)
    (overload : Overload) :
    s.StaysDown (.connect env overload) ↔ ¬ s.Overlaps env overload := by
  simp only [StaysDown, Overlaps, Device.perform, Device.finish, WiFiClientSecure.connectBy_eq,
    WiFiClientSecure.isConnected, WiFiClientSecure.readBuf, if_true]
  cases s.client.arguments env overload with
  | none => simp [WiFiClientSecure.timed]
  | some args => exact startClient_down_iff (s.client.timed overload) env s.crts args hs

/-- In a sound state the law of a call and the absence of overlaps agree. -/
theorem staysDown_iff (s : Attempted) (call : Call) (hs : s.Sound) :
    s.StaysDown call ↔ s.ConnectsApart call := by
  cases call with
  | connect env overload => exact connect_staysDown_iff s hs.sane env overload
  | write answers =>
      refine ⟨fun _ => trivial, fun _ hfailed => ?_⟩
      simp [Device.perform, Device.finish, WiFiClientSecure.write, hs.down hfailed]
  | connected =>
      refine ⟨fun _ => trivial, fun _ hfailed => ?_⟩
      simp [Device.perform, WiFiClientSecure.isConnected, WiFiClientSecure.readBuf,
        hs.down hfailed]
  | _ => exact Iff.rfl

theorem sound_io (s : Attempted) (hs : s.Sound) (call : Call) (hio : call.isIo = true) :
    Sound { s with toDevice := (s.toDevice.perform call).client } := by
  have hsteps := (s.toDevice.perform_io call hio).1
  refine ⟨WiFiClientSecure.sane_io _ _ _ hsteps hs.sane, fun hfailed => ?_⟩
  exact WiFiClientSecure.disconnected_io _ _ _ hsteps (hs.down hfailed)

/-- Calls that obey the law keep a failed client disconnected. -/
theorem step_sound (s : Attempted) (call : Call) (hs : s.Sound) (hlaw : s.StaysDown call) :
    (s.step call).Sound := by
  cases call with
  | set setting =>
      have hkept := s.toDevice.assign_connection setting
      refine ⟨fun hc => ?_, fun hfailed => hkept.1.trans (hs.down hfailed)⟩
      simp only [step, Device.perform, hkept.1, hkept.2] at hc ⊢
      exact hs.sane hc
  | setCertificate clientCa => exact ⟨hs.sane, hs.down⟩
  | setPrivateKey privateKey => exact ⟨hs.sane, hs.down⟩
  | connect env overload =>
      refine ⟨?_, fun hfailed => hlaw (of_decide_eq_true hfailed)⟩
      simp only [step, Device.perform, Device.finish, WiFiClientSecure.connectBy_eq]
      cases s.client.arguments env overload with
      | none => exact hs.sane
      | some args => exact WiFiClientSecure.sane_startClient _ _ _ _
  | stop => exact ⟨WiFiClientSecure.sane_stop _, fun _ => WiFiClientSecure.stop_connected _ hs.sane⟩
  | write answers => exact sound_io s hs (.write answers) rfl
  | read answer => exact sound_io s hs (.read answer) rfl
  | readBuf answer size => exact sound_io s hs (.readBuf answer size) rfl
  | peek answers => exact sound_io s hs (.peek answers) rfl
  | available pending => exact sound_io s hs (.available pending) rfl
  | connected => exact sound_io s hs .connected rfl

theorem sound_ofSocket (sock : Int) : Sound { client := .ofSocket sock } :=
  ⟨fun h => of_decide_eq_true h, fun h => absurd h (by simp)⟩

/-- A failed connect leaves the client disconnected, along a run of any calls,
exactly when no connect of the run overlaps. -/
theorem stays_down_iff (sock : Int) (calls : List Call) :
    Always step StaysDown { client := .ofSocket sock } calls ↔
      Always step ConnectsApart { client := .ofSocket sock } calls :=
  EventRun.always_iff_of_good step_sound staysDown_iff (sound_ofSocket sock) calls

/-- A client that connects, and connects again to a port that refuses. -/
def connectedThenRefused : List Call :=
  [.set .insecure, .connect (.smooth 1 (.offering .unauthenticated)) (.host ['h'] 443),
    .connect { ConnectEnv.smooth 2 (.offering .unauthenticated) with sockerr := 111 }
      (.host ['h'] 444)]

/-- The second connect returns zero and leaves the client connected. -/
theorem refused_stays_connected : ¬ Always step StaysDown { client := .new } connectedThenRefused :=
  fun h => absurd (h.2.2.1 rfl) (by decide)

end Attempted

end ArduinoBeken.Tls
