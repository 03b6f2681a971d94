import ArduinoBeken.Tls.SecureClient

/-!
# The Calls on a Secure Client

A sketch drives a `WiFiClientSecure` through its public methods. A `Call` is
one of them with its arguments and with what the outside answers while it
runs, and `Device.perform` runs it on the client and the global bundle.

The overloads of `connect` differ in where their arguments come from:
`arguments` says what `start_ssl_client` is called with, unless the lookup of
the host fails first.

## Main definitions

* `Overload`, `Setting`, `Call`: The methods with their arguments.
* `Device`: A client and the global bundle.
* `Device.perform`: A call on a device.
* `WiFiClientSecure.arguments`: The arguments a connect starts with.

## Theorems

* `connectBy_eq`: A connect looks the host up and starts.
* `perform_io`: Reading and writing only look ahead, write and stop.
-/

namespace ArduinoBeken.Tls

open Net (SocketCall Outcome)
open Polling (Timed)

/-- The calls that set the trust, with their arguments; `allocated` says
whether the memory for a bundle was there. -/
inductive Setting where
  | insecure
  | caCert (rootCA : Option CStr)
  | caBundle (bundle : Option Bundle) (allocated : Bool)
  | preSharedKey (pskIdent psKey : Option CStr)
deriving DecidableEq, Repr

/-- The overloads of `connect`. -/
inductive Overload where
  | host (host : CStr) (port : UInt16)
  | hostTimeout (host : CStr) (port : UInt16) (timeout : Int32)
  | ip (ip : UInt32) (port : UInt16)
  | ipTimeout (ip : UInt32) (port : UInt16) (timeout : Int32)
  | hostCert (host : CStr) (port : UInt16) (caCert cert privateKey : Option CStr)
  | ipCert (ip : UInt32) (port : UInt16) (caCert cert privateKey : Option CStr)
  | ipHostCert (ip : UInt32) (port : UInt16) (host caCert cert privateKey : Option CStr)
  | hostPsk (host : CStr) (port : UInt16) (pskIdent psKey : Option CStr)
  | ipPsk (ip : UInt32) (port : UInt16) (pskIdent psKey : Option CStr)
deriving DecidableEq, Repr

/-- The overloads that take everything but the server from the fields. -/
def Overload.plain : Overload → Bool
  | .host _ _ | .hostTimeout _ _ _ | .ip _ _ | .ipTimeout _ _ _ => true
  | _ => false

/-- The timeout that an overload stores. -/
def Overload.timeout : Overload → Option Int
  | .hostTimeout _ _ timeout | .ipTimeout _ _ timeout => some timeout.toInt
  | _ => none

/-- The public methods, with what the outside answers. -/
inductive Call where
  | set (setting : Setting)
  | setCertificate (clientCa : Option CStr)
  | setPrivateKey (privateKey : Option CStr)
  | connect (env : ConnectEnv) (overload : Overload)
  | stop
  | write (answers : Timed Int)
  | read (answer : SslRead)
  | readBuf (answer : SslRead) (size : Nat)
  | peek (answers : Timed SslRead)
  | available (pending : WiFiClientSecure.Pending)
  | connected

/-- What a call gives back to the sketch. -/
structure Reply where
  ret : Int := 0
  bytes : List UInt8 := []
deriving DecidableEq, Repr

namespace WiFiClientSecure

/-- The client with the timeout of an overload. -/
def timed (c : WiFiClientSecure) (overload : Overload) : WiFiClientSecure :=
  { c with timeout := overload.timeout.getD c.timeout }

/-- The call of an overload. -/
def connectBy (c : WiFiClientSecure) (env : ConnectEnv) (crts : Option Bundle) :
    Overload → Outcome WiFiClientSecure Int
  | .host host port => c.connectHost env crts host port
  | .hostTimeout host port timeout =>
      connectHost { c with timeout := timeout.toInt } env crts host port
  | .ip ip port => c.connectIp env crts ip port
  | .ipTimeout ip port timeout =>
      connectIp { c with timeout := timeout.toInt } env crts ip port
  | .hostCert host port caCert cert privateKey =>
      c.connectHostCert env crts host port caCert cert privateKey
  | .ipCert ip port caCert cert privateKey =>
      c.connectIpCert env crts ip port caCert cert privateKey
  | .ipHostCert ip port host caCert cert privateKey =>
      c.connectIpHostCert env crts ip port host caCert cert privateKey
  | .hostPsk host port pskIdent psKey => c.connectHostPsk env crts host port pskIdent psKey
  | .ipPsk ip port pskIdent psKey => c.connectIpPsk env crts ip port pskIdent psKey

/-- The arguments of a connect to a host by the fields, unless the lookup fails. -/
def hostArguments (c : WiFiClientSecure) (env : ConnectEnv) (host : CStr) (port : UInt16) :
    Option SslArgs :=
  (env.hostByName host).map fun ip =>
    if c.hasPsk then c.pskArgs ip port host c.pskIdent c.psKey
    else c.certArgs ip port (some host) c.caCert c.cert c.privateKey

/-- The arguments of a connect to an address by the fields. -/
def ipArguments (c : WiFiClientSecure) (env : ConnectEnv) (ip : UInt32) (port : UInt16) :
    Option SslArgs :=
  if c.hasPsk then
    (env.hostByName (ipText ip)).map fun found =>
      c.pskArgs found port (ipText ip) c.pskIdent c.psKey
  else some (c.certArgs ip port none c.caCert c.cert c.privateKey)

/-- What `start_ssl_client` is called with, unless a lookup fails. -/
def arguments (c : WiFiClientSecure) (env : ConnectEnv) : Overload → Option SslArgs
  | .host host port => c.hostArguments env host port
  | .hostTimeout host port timeout =>
      hostArguments { c with timeout := timeout.toInt } env host port
  | .ip ip port => c.ipArguments env ip port
  | .ipTimeout ip port timeout => ipArguments { c with timeout := timeout.toInt } env ip port
  | .hostCert host port caCert cert privateKey =>
      (env.hostByName host).map fun ip =>
        c.certArgs ip port (some host) caCert cert privateKey
  | .ipCert ip port caCert cert privateKey =>
      some (c.certArgs ip port none caCert cert privateKey)
  | .ipHostCert ip port host caCert cert privateKey =>
      some (c.certArgs ip port host caCert cert privateKey)
  | .hostPsk host port pskIdent psKey =>
      (env.hostByName host).map fun ip => c.pskArgs ip port host pskIdent psKey
  | .ipPsk ip port pskIdent psKey =>
      (env.hostByName (ipText ip)).map fun found =>
        c.pskArgs found port (ipText ip) pskIdent psKey

theorem connectHostCert_eq (c : WiFiClientSecure) (env : ConnectEnv) (crts : Option Bundle)
    (host : CStr) (port : UInt16) (caCert cert privateKey : Option CStr) :
    c.connectHostCert env crts host port caCert cert privateKey =
      match c.arguments env (.hostCert host port caCert cert privateKey) with
      | none => ⟨0, c, []⟩
      | some args => c.startClient env crts args := by
  simp only [connectHostCert, arguments]
  cases env.hostByName host with
  | none => rfl
  | some ip => rfl

theorem connectHostPsk_eq (c : WiFiClientSecure) (env : ConnectEnv) (crts : Option Bundle)
    (host : CStr) (port : UInt16) (pskIdent psKey : Option CStr) :
    c.connectHostPsk env crts host port pskIdent psKey =
      match c.arguments env (.hostPsk host port pskIdent psKey) with
      | none => ⟨0, c, []⟩
      | some args => c.startClient env crts args := by
  simp only [connectHostPsk, arguments]
  cases env.hostByName host with
  | none => rfl
  | some ip => rfl

theorem connectHost_eq (c : WiFiClientSecure) (env : ConnectEnv) (crts : Option Bundle)
    (host : CStr) (port : UInt16) :
    c.connectHost env crts host port =
      match c.hostArguments env host port with
      | none => ⟨0, c, []⟩
      | some args => c.startClient env crts args := by
  by_cases hpsk : c.hasPsk
  · simp only [connectHost, if_pos hpsk, connectHostPsk_eq, arguments, hostArguments]
  · simp only [connectHost, if_neg hpsk, connectHostCert_eq, arguments, hostArguments]

theorem connectIp_eq (c : WiFiClientSecure) (env : ConnectEnv) (crts : Option Bundle)
    (ip : UInt32) (port : UInt16) :
    c.connectIp env crts ip port =
      match c.ipArguments env ip port with
      | none => ⟨0, c, []⟩
      | some args => c.startClient env crts args := by
  by_cases hpsk : c.hasPsk
  · simp only [connectIp, if_pos hpsk, connectIpPsk, connectHostPsk_eq, arguments, ipArguments]
  · simp only [connectIp, if_neg hpsk, connectIpCert, connectIpHostCert, ipArguments]

/-- A connect stores its timeout. It fails to look the host up and leaves the client as it is
otherwise, or it starts with its arguments. -/
theorem connectBy_eq (c : WiFiClientSecure) (env : ConnectEnv) (crts : Option Bundle)
    (overload : Overload) :
    c.connectBy env crts overload =
      match c.arguments env overload with
      | none => ⟨0, c.timed overload, []⟩
      | some args => (c.timed overload).startClient env crts args := by
  cases overload with
  | host host port => exact connectHost_eq c env crts host port
  | hostTimeout host port timeout => exact connectHost_eq _ env crts host port
  | ip ip port => exact connectIp_eq c env crts ip port
  | ipTimeout ip port timeout => exact connectIp_eq _ env crts ip port
  | hostCert host port caCert cert privateKey => exact connectHostCert_eq c env crts _ _ _ _ _
  | ipCert ip port caCert cert privateKey => rfl
  | ipHostCert ip port host caCert cert privateKey => rfl
  | hostPsk host port pskIdent psKey => exact connectHostPsk_eq c env crts _ _ _ _
  | ipPsk ip port pskIdent psKey => exact connectHostPsk_eq c env crts _ _ _ _

end WiFiClientSecure

/-- A client and the bundle that is global to the program. -/
structure Device where
  client : WiFiClientSecure
  crts : Option Bundle := none
deriving DecidableEq, Repr

namespace Device

/-- The call of a setter. -/
def assign (d : Device) : Setting → Device
  | .insecure => { d with client := d.client.setInsecure }
  | .caCert rootCA => { d with client := d.client.setCACert rootCA }
  | .caBundle bundle allocated =>
      { client := (d.client.setCACertBundle allocated bundle).1
        crts := (d.client.setCACertBundle allocated bundle).2 }
  | .preSharedKey pskIdent psKey => { d with client := d.client.setPreSharedKey pskIdent psKey }

/-- The setters leave the connection alone. -/
theorem assign_connection (d : Device) (setting : Setting) :
    (d.assign setting).client.connected = d.client.connected ∧
      (d.assign setting).client.sslclient = d.client.sslclient ∧
      (d.assign setting).client.peeked = d.client.peeked := by
  cases setting with
  | caBundle bundle allocated => cases bundle <;> exact ⟨rfl, rfl, rfl⟩
  | _ => exact ⟨rfl, rfl, rfl⟩

/-- The device after a method of the client. -/
def finish {ρ : Type} (d : Device) (out : Outcome WiFiClientSecure ρ) (reply : Reply) :
    Outcome Device Reply :=
  ⟨reply, { d with client := out.client }, out.calls⟩

/-- A call on the device. -/
def perform (d : Device) : Call → Outcome Device Reply
  | .set setting => ⟨{}, d.assign setting, []⟩
  | .setCertificate clientCa =>
      ⟨{}, { d with client := d.client.setCertificate clientCa }, []⟩
  | .setPrivateKey privateKey =>
      ⟨{}, { d with client := d.client.setPrivateKey privateKey }, []⟩
  -- every overload comes down to `start_ssl_client`
  | .connect env overload =>
      let out := d.client.connectBy env d.crts overload
      d.finish out { ret := out.result }
  | .stop => d.finish d.client.stop {}
  | .write answers =>
      let out := d.client.write answers
      d.finish out { ret := out.result }
  | .read answer =>
      let out := d.client.read answer
      d.finish out { ret := out.result }
  -- the bytes are those of the sketch's buffer
  | .readBuf answer size =>
      let out := d.client.readBuf answer size
      d.finish out { ret := out.result.1, bytes := out.result.2 }
  | .peek answers =>
      let out := d.client.peek answers
      d.finish out { ret := out.result }
  | .available pending =>
      let out := d.client.available pending
      d.finish out { ret := out.result }
  | .connected => ⟨{ ret := if d.client.isConnected then 1 else 0 }, d, []⟩

end Device

/-! ### Reading and writing -/

/-- What reading and writing amounts to for the client: looking ahead, calling
mbedTLS, and stopping while connected, with the calls this makes. -/
inductive IoSteps : WiFiClientSecure → List SocketCall → WiFiClientSecure → Prop where
  | done (c : WiFiClientSecure) : IoSteps c [] c
  | look (c d : WiFiClientSecure) (calls : List SocketCall) (peeked : Option UInt8)
      (h : IoSteps { c with peeked := peeked } calls d) : IoSteps c calls d
  | tls (c d : WiFiClientSecure) (call : SocketCall) (calls : List SocketCall)
      (hcall : call.isTls = true) (h : IoSteps c calls d) : IoSteps c (call :: calls) d
  | stop (c d : WiFiClientSecure) (calls : List SocketCall) (hc : c.connected = true)
      (h : IoSteps c.stop.client calls d) : IoSteps c (c.stop.calls ++ calls) d

namespace IoSteps

theorem trans (c d e : WiFiClientSecure) (calls calls' : List SocketCall)
    (h : IoSteps c calls d) (h' : IoSteps d calls' e) : IoSteps c (calls ++ calls') e := by
  induction h with
  | done c => exact h'
  | look c d calls peeked _ ih => exact .look c e _ peeked (ih h')
  | tls c d call calls hcall _ ih => exact .tls c e call _ hcall (ih h')
  | stop c d calls hc _ ih =>
      rw [List.append_assoc]
      exact .stop c e _ hc (ih h')

theorem single_look (c : WiFiClientSecure) (peeked : Option UInt8) :
    IoSteps c [] { c with peeked := peeked } :=
  .look c _ _ peeked (.done _)

theorem single_stop (c : WiFiClientSecure) (hc : c.connected = true) :
    IoSteps c c.stop.calls c.stop.client := by
  have h := IoSteps.stop c _ _ hc (.done _)
  rwa [List.append_nil] at h

end IoSteps

namespace WiFiClientSecure

theorem write_io (c : WiFiClientSecure) (answers : Timed Int) :
    IoSteps c (c.write answers).calls (c.write answers).client := by
  unfold write
  by_cases hc : c.connected = false
  · rw [if_pos hc]
    exact .done c
  · have hc' : c.connected = true := by simpa using hc
    rw [if_neg hc]
    by_cases hres : sendSslData answers < 0
    · simp only [if_pos hres]
      exact .tls c _ _ _ rfl (.single_stop c hc')
    · simp only [if_neg hres]
      exact .tls c _ _ _ rfl (.done c)

theorem readBuf_io (c : WiFiClientSecure) (answer : SslRead) (size : Nat) :
    IoSteps c (c.readBuf answer size).calls (c.readBuf answer size).client := by
  unfold readBuf
  by_cases hsize : size = 0
  · rw [if_pos hsize]
    exact .done c
  rw [if_neg hsize]
  by_cases hc : c.connected = false
  · rw [if_pos hc]
    exact .done c
  rw [if_neg hc]
  have hc' : c.connected = true := by simpa using hc
  simp only
  split
  · exact .single_look c none
  · split
    · exact .look c _ _ none (.tls _ _ _ _ rfl (.single_stop _ hc'))
    · exact .look c _ _ none (.tls _ _ _ _ rfl (.done _))

theorem read_io (c : WiFiClientSecure) (answer : SslRead) :
    IoSteps c (c.read answer).calls (c.read answer).client :=
  c.readBuf_io answer 1

theorem available_io (c : WiFiClientSecure) (pending : Pending) :
    IoSteps c (c.available pending).calls (c.available pending).client := by
  unfold available
  by_cases hc : c.connected = false
  · simp only [if_pos hc]
    exact .done c
  have hc' : c.connected = true := by simpa using hc
  simp only [if_neg hc]
  split
  · exact .done c
  · split
    · split
      · exact .single_stop c hc'
      · exact .done c
    · exact .done c

theorem timedRead_io (c : WiFiClientSecure) (answers : Timed SslRead) :
    IoSteps c (c.timedRead answers).calls (c.timedRead answers).client := by
  refine Polling.poll_rule (fun s => IoSteps c s.2 s.1) (fun s _ => IoSteps c s.2 s.1)
    timedReadTurn timedReadLate ?_ ?_ ?_ answers (c, []) (.done c)
  · intro s answer s' r hs hturn
    rw [Prod.mk.injEq] at hturn
    exact hturn.1 ▸ .trans _ _ _ _ _ hs (s.1.read_io answer)
  · intro s answer s' hs hturn
    rw [Prod.mk.injEq] at hturn
    exact hturn.1 ▸ .trans _ _ _ _ _ hs (s.1.read_io answer)
  · intro s answer hs
    exact .trans _ _ _ _ _ hs (s.1.read_io answer)

theorem peek_io (c : WiFiClientSecure) (answers : Timed SslRead) :
    IoSteps c (c.peek answers).calls (c.peek answers).client := by
  unfold peek
  cases c.peeked with
  | some b => exact .done c
  | none =>
      have hread := c.timedRead_io answers
      simp only []
      generalize c.timedRead answers = out at hread ⊢
      have hlook := hread.trans _ _ _ _ _
        (.single_look _ (if 0 ≤ out.result then some (UInt8.ofNat out.result.toNat) else none))
      rwa [List.append_nil] at hlook

end WiFiClientSecure

/-- The calls that read or write. -/
def Call.isIo : Call → Bool
  | .write _ | .read _ | .readBuf _ _ | .peek _ | .available _ | .connected => true
  | _ => false

theorem Device.perform_io (d : Device) (call : Call) (h : call.isIo = true) :
    IoSteps d.client (d.perform call).calls (d.perform call).client.client ∧
      (d.perform call).client.crts = d.crts := by
  refine ⟨?_, ?_⟩
  · cases call with
    | write answers => exact d.client.write_io answers
    | read answer => exact d.client.read_io answer
    | readBuf answer size => exact d.client.readBuf_io answer size
    | peek answers => exact d.client.peek_io answers
    | available pending => exact d.client.available_io pending
    | connected => exact .done _
    | _ => exact absurd h (by simp [Call.isIo])
  · cases call with
    | write | read | readBuf | peek | available | connected => rfl
    | _ => exact absurd h (by simp [Call.isIo])

end ArduinoBeken.Tls
