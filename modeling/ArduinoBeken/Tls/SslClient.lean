import ArduinoBeken.Library.Polling
import ArduinoBeken.Net.WiFiClient

/-!
# The TLS Session under a Secure Client

`start_ssl_client` opens a socket, configures mbedTLS and shakes hands;
`stop_ssl_socket` tears everything down and zeroes the context, the socket
field included. What lwIP and mbedTLS answer on the way is a `ConnectEnv`.

mbedTLS itself is not part of the sources, so a `ConnectEnv` also says how the
library loads its presets and how the peer authenticates itself. Two facts its
documentation promises come with it as fields: the presets ask for
verification and add no source of trust, and a handshake that completes
respects the configuration it ran under (`Permits`).

Each stage of `start_ssl_client` either goes on or leaves with a return value,
so the function is a chain of stages in `Except`.

## Main definitions

* `SslConfig`: What the functions here set in `mbedtls_ssl_config`.
* `Auth`: How the peer of a session was authenticated.
* `Permits`: The ways of authenticating a configuration lets through.
* `SslClientContext`: The `sslclient_context`.
* `ConnectEnv`: What the outside answers to one connect.
* `startSslClient`, `stopSslSocket`: The two functions.
* `dataToRead`, `sendSslData`: Reading and writing over the session.
-/

namespace ArduinoBeken.Tls

open Net (SocketCall)
open Polling (Timed poll)

/-- A C string. -/
abbrev CStr : Type := List Char

/-- The bytes of a certificate bundle. -/
abbrev Bundle : Type := List UInt8

/-- What an mbedTLS function returns: zero, or a negative error code. -/
abbrev MbedtlsRet : Type := { r : Int // r ≤ 0 }

/-- The result of success. -/
def MbedtlsRet.ok : MbedtlsRet := ⟨0, Int.le_refl 0⟩

/-- The session waits for the peer. -/
def MBEDTLS_ERR_SSL_WANT_READ : Int := -0x6900
/-- The session waits for the network. -/
def MBEDTLS_ERR_SSL_WANT_WRITE : Int := -0x6880
/-- The bytes that a pre-shared key may have. -/
def MBEDTLS_PSK_MAX_LEN : Nat := 32
/-- The error of the SDK. -/
def BK_FAIL : Int := -1

/-- The code asks to try again. -/
def wants (ret : Int) : Prop :=
  ret = MBEDTLS_ERR_SSL_WANT_READ ∨ ret = MBEDTLS_ERR_SSL_WANT_WRITE

instance (ret : Int) : Decidable (wants ret) := by
  unfold wants
  infer_instance

/-- The modes of authentication that the client sets. -/
inductive AuthMode where
  | verifyNone
  | verifyRequired
deriving DecidableEq, Repr

/-- What `ca_chain` points at: the context's own certificate, or the dummy one
that stands for the bundle. -/
inductive CaChain where
  | own
  | dummy
deriving DecidableEq, Repr

/-- The part of `mbedtls_ssl_config` that is set here. `verify` says that
`bk_crt_verify_callback` is installed. -/
structure SslConfig where
  authmode : AuthMode := .verifyNone
  caChain : Option CaChain := none
  verify : Bool := false
  psk : Option (CStr × List UInt8) := none
  keyCert : Bool := false
  alpnList : Option (List CStr) := none
  readTimeout : Nat := 0
deriving DecidableEq, Repr

/-- How the peer of an established session was authenticated. -/
inductive Auth where
  | unauthenticated
  | byChain (pem : CStr)
  | byBundle (bundle : Bundle)
  | byPsk (ident : CStr) (key : List UInt8)
deriving DecidableEq, Repr

/-- The authentications a configuration lets through, where `caCert` is what
the context's certificate holds and `crts` the bundle in use. -/
def Permits (conf : SslConfig) (caCert : Option CStr) (crts : Option Bundle) : Auth → Prop
  | .unauthenticated => conf.authmode = .verifyNone
  | .byChain pem => conf.caChain = some .own ∧ caCert = some pem
  | .byBundle bundle => conf.caChain ≠ none ∧ conf.verify = true ∧ crts = some bundle
  | .byPsk ident key => conf.psk = some (ident, key)

instance (conf : SslConfig) (caCert : Option CStr) (crts : Option Bundle) (auth : Auth) :
    Decidable (Permits conf caCert crts auth) := by
  cases auth <;> unfold Permits <;> infer_instance

/-- The state of `mbedtls_ssl_context`. -/
inductive SslContext where
  | zero
  | setUp
  | established (auth : Auth)
deriving DecidableEq, Repr

/-- The `sslclient_context`. -/
structure SslClientContext where
  socket : Int := 0
  sslCtx : SslContext := .zero
  sslConf : SslConfig := {}
  hostname : Option (CStr ⊕ UInt32) := none
  caCert : Option CStr := none
  clientCert : Option CStr := none
  clientKey : Option CStr := none
  socketTimeout : Nat := 0
  handshakeTimeout : Nat := 0
deriving DecidableEq, Repr

/-- What `mbedtls_ssl_config_defaults` leaves in the configuration. -/
structure Presets where
  apply : SslConfig → SslConfig
  authmode : ∀ conf, (apply conf).authmode = .verifyRequired
  caChain : ∀ conf, conf.caChain = none → (apply conf).caChain = none
  verify : ∀ conf, conf.verify = false → (apply conf).verify = false
  psk : ∀ conf, conf.psk = none → (apply conf).psk = none

/-- The presets that touch no other field. -/
def Presets.client : Presets where
  apply := fun conf => { conf with authmode := .verifyRequired }
  authmode := fun _ => rfl
  caChain := fun _ h => h
  verify := fun _ h => h
  psk := fun _ h => h

/-- The handshake loop's turn: settled unless the library wants to go on. -/
def handshakeTurn (s : Unit) (ret : MbedtlsRet) : Unit × Option Int :=
  if ret.1 = 0 then (s, some 0)
  else if ¬ wants ret.1 then (s, some ret.1)
  else (s, none)

/-- The turn after which `handshake_timeout` has passed. -/
def handshakeLate (s : Unit) (ret : MbedtlsRet) : Unit × Int :=
  if ret.1 = 0 then (s, 0)
  else if ¬ wants ret.1 then (s, ret.1)
  else (s, -1)

/-- The loop over `mbedtls_ssl_handshake`, with its timeout. -/
def handshakeLoop (answers : Timed MbedtlsRet) : Int :=
  (poll handshakeTurn handshakeLate answers ()).2

/-- The library and the server in one handshake: what the calls return, and
how the server is authenticated when they return zero. That the library
enforces its configuration is an assumption; where a context is set up a second
time without a stop between, which the library does not support, it is no more
than that. -/
structure Handshake where
  answers : SslConfig → Option CStr → Option Bundle → Timed MbedtlsRet
  auth : SslConfig → Option CStr → Option Bundle → Auth
  enforces : ∀ conf caCert crts, handshakeLoop (answers conf caCert crts) = 0 →
    Permits conf caCert crts (auth conf caCert crts)

/-- A server that authenticates itself in one way, where that is let through,
and with which no other handshake completes. -/
def Handshake.offering (auth : Auth) : Handshake where
  answers := fun conf caCert crts =>
    ⟨[], if Permits conf caCert crts auth then .ok else ⟨-1, by decide⟩⟩
  auth := fun _ _ _ => auth
  enforces := by
    intro conf caCert crts h
    by_contra hnot
    rw [if_neg hnot] at h
    exact absurd h (by decide)

/-- What the outside answers to one `connect`. -/
structure ConnectEnv where
  hostByName : CStr → Option UInt32
  lwipSocket : Int
  lwipConnect : Int
  inProgress : Bool
  select : Int
  getsockopt : Int
  sockerr : Int
  rcvTimeo : Int
  sndTimeo : Int
  noDelay : Int
  keepAlive : Int
  drbgSeed : MbedtlsRet
  configDefaults : MbedtlsRet
  presets : Presets
  alpnProtocols : MbedtlsRet
  crtParse : CStr → Int
  confPsk : MbedtlsRet
  pkParseKey : CStr → MbedtlsRet
  setHostname : MbedtlsRet
  sslSetup : MbedtlsRet
  handshake : Handshake
  verifyResult : Nat

/-- An outside in which everything up to the handshake succeeds. -/
def ConnectEnv.smooth (socket : Nat) (handshake : Handshake) : ConnectEnv where
  hostByName := fun _ => some 0
  lwipSocket := socket
  lwipConnect := 0
  inProgress := false
  select := 1
  getsockopt := 0
  sockerr := 0
  rcvTimeo := 0
  sndTimeo := 0
  noDelay := 0
  keepAlive := 0
  drbgSeed := .ok
  configDefaults := .ok
  presets := .client
  alpnProtocols := .ok
  crtParse := fun _ => 0
  confPsk := .ok
  pkParseKey := fun _ => .ok
  setHostname := .ok
  sslSetup := .ok
  handshake := handshake
  verifyResult := 0

/-- The arguments of `start_ssl_client` after the context. -/
structure SslArgs where
  ip : UInt32
  port : UInt16
  hostname : Option CStr
  timeout : Int
  rootCABuff : Option CStr
  useRootCABundle : Bool
  cliCert : Option CStr
  cliKey : Option CStr
  pskIdent : Option CStr
  psKey : Option CStr
  insecure : Bool
  alpnProtos : Option (List CStr)

/-- A context and the lwIP calls made so far. -/
structure Attempt where
  ctx : SslClientContext
  calls : List SocketCall := []
deriving DecidableEq, Repr

/-- A stage goes on, or leaves `start_ssl_client` with a return value. -/
abbrev Stage : Type := Except (Int × Attempt) Attempt

namespace Attempt

/-- Closes the socket and forgets it. -/
def dropSocket (a : Attempt) : Attempt :=
  { ctx := { a.ctx with socket := -1 }, calls := a.calls ++ [.closed a.ctx.socket] }

/-- The attempt with another configuration. -/
def setConf (a : Attempt) (conf : SslConfig) : Attempt :=
  { a with ctx := { a.ctx with sslConf := conf } }

end Attempt

/-- None of the sources of trust is given. -/
def SslArgs.noTrust (args : SslArgs) : Prop :=
  args.rootCABuff = none ∧ args.pskIdent = none ∧ args.psKey = none ∧ args.insecure = false ∧
    args.useRootCABundle = false

instance (args : SslArgs) : Decidable args.noTrust := by
  unfold SslArgs.noTrust
  infer_instance

/-- `lwip_socket`. What it returns is kept, also if it is negative. -/
def openSocket (env : ConnectEnv) (ctx : SslClientContext) : Stage :=
  if env.lwipSocket < 0 then
    .error (env.lwipSocket, { ctx := { ctx with socket := env.lwipSocket } })
  else
    .ok { ctx := { ctx with socket := env.lwipSocket }, calls := [.opened env.lwipSocket] }

/-- The TCP connection does not come about. -/
def ConnectEnv.tcpFails (env : ConnectEnv) : Prop :=
  (env.lwipConnect < 0 ∧ env.inProgress = false) ∨ env.select ≤ 0 ∨ env.getsockopt < 0 ∨
    env.sockerr ≠ 0

instance (env : ConnectEnv) : Decidable env.tcpFails := by
  unfold ConnectEnv.tcpFails
  infer_instance

/-- Connects and waits with `select`; every failure here closes the socket. -/
def connectTcp (env : ConnectEnv) (args : SslArgs) (a : Attempt) : Stage :=
  let timeout := if args.timeout ≤ 0 then 30000 else args.timeout.toNat
  let a : Attempt :=
    { ctx := { a.ctx with socketTimeout := timeout }
      calls := a.calls ++ [.connecting a.ctx.socket args.ip args.port] }
  if env.tcpFails then .error (-1, a.dropSocket) else .ok a

/-- The four `lwip_setsockopt` calls; a failure leaves the socket open. -/
def setOptions (env : ConnectEnv) (a : Attempt) : Stage :=
  if env.rcvTimeo < 0 ∨ env.sndTimeo < 0 ∨ env.noDelay < 0 ∨ env.keepAlive < 0 then
    .error (-1, a)
  else .ok a

/-- Seeds the generator and loads the presets and the ALPN list. -/
def configure (env : ConnectEnv) (args : SslArgs) (a : Attempt) : Stage :=
  if env.drbgSeed.1 < 0 then .error (env.drbgSeed.1, a)
  else if env.configDefaults.1 ≠ 0 then .error (env.configDefaults.1, a)
  else
    let conf := env.presets.apply a.ctx.sslConf
    let a := a.setConf { conf with readTimeout := a.ctx.socketTimeout }
    match args.alpnProtos with
    | none => .ok a
    | some protos =>
        if env.alpnProtocols.1 ≠ 0 then .error (env.alpnProtocols.1, a)
        else .ok (a.setConf { a.ctx.sslConf with alpnList := some protos })

/-- The value of a digit of a pre-shared key. -/
def hexNibble (c : Char) : Option UInt8 :=
  if '0' ≤ c ∧ c ≤ '9' then some (UInt8.ofNat (c.toNat - '0'.toNat))
  else if 'A' ≤ c ∧ c ≤ 'F' then some (UInt8.ofNat (c.toNat - 'A'.toNat + 10))
  else if 'a' ≤ c ∧ c ≤ 'f' then some (UInt8.ofNat (c.toNat - 'a'.toNat + 10))
  else none

/-- The bytes a key in hexadecimal stands for. -/
def hexBytes : List Char → Option (List UInt8)
  | [] => some []
  | [_] => none
  | high :: low :: rest =>
      match hexNibble high, hexNibble low, hexBytes rest with
      | some h, some l, some bytes => some ((h <<< 4 ||| l) :: bytes)
      | _, _, _ => none

/-- The conversion of `psKey`, with the check of its length before it. -/
def pskBytes (psKey : CStr) : Option (List UInt8) :=
  if psKey.length % 2 ≠ 0 ∨ 2 * MBEDTLS_PSK_MAX_LEN < psKey.length then none
  else hexBytes psKey

/-- `arduino_crt_bundle_attach`. -/
def crtBundleAttach (crts : Option Bundle) (conf : SslConfig) : Except Int SslConfig :=
  match crts with
  | none => .error BK_FAIL
  | some _ => .ok { conf with caChain := some .dummy, verify := true }

/-- Picks the source of trust: no verification, the certificate, the bundle
and the pre-shared key, the first one that is there. -/
def trust (env : ConnectEnv) (crts : Option Bundle) (args : SslArgs) (a : Attempt) : Stage :=
  -- the first source that is set is the one that counts
  if args.insecure then .ok (a.setConf { a.ctx.sslConf with authmode := .verifyNone })
  else
    match args.rootCABuff with
    | some pem =>
        let conf := { a.ctx.sslConf with authmode := .verifyRequired, caChain := some .own }
        if env.crtParse pem < 0 then
          .error (env.crtParse pem,
            { a with ctx := { a.ctx with sslConf := conf, caCert := none } })
        else .ok { a with ctx := { a.ctx with sslConf := conf, caCert := some pem } }
    | none =>
        if args.useRootCABundle then
          match crtBundleAttach crts a.ctx.sslConf with
          | .error ret => .error (ret, a)
          | .ok conf => .ok (a.setConf conf)
        else
          match args.pskIdent, args.psKey with
          | some ident, some key =>
              -- the key is hexadecimal text of even length, and not too long
              match pskBytes key with
              | none => .error (-1, a)
              | some psk =>
                  if env.confPsk.1 ≠ 0 then .error (env.confPsk.1, a)
                  else .ok (a.setConf { a.ctx.sslConf with psk := some (ident, psk) })
          | _, _ => .error (-1, a)

/-- Loads the client's own certificate, when it has one to show. -/
def ownCertificate (env : ConnectEnv) (args : SslArgs) (a : Attempt) : Stage :=
  match args.insecure, args.cliCert, args.cliKey with
  | false, some cert, some key =>
      let freed : Attempt := { a with ctx := { a.ctx with clientCert := none, clientKey := none } }
      if env.crtParse cert < 0 then .error (env.crtParse cert, freed)
      else if (env.pkParseKey key).1 ≠ 0 then .error ((env.pkParseKey key).1, freed)
      else
        .ok { a with
          ctx := { a.ctx with
            clientCert := some cert
            clientKey := some key
            sslConf := { a.ctx.sslConf with keyCert := true } } }
  | _, _, _ => .ok a

/-- Names the server and sets the session up over the socket. A context that
was set up before is set up again. -/
def setupSession (env : ConnectEnv) (args : SslArgs) (a : Attempt) : Stage :=
  if env.setHostname.1 ≠ 0 then .error (env.setHostname.1, a)
  else
    let name : CStr ⊕ UInt32 := (args.hostname.map Sum.inl).getD (.inr args.ip)
    let a : Attempt := { a with ctx := { a.ctx with hostname := some name } }
    if env.sslSetup.1 ≠ 0 then .error (env.sslSetup.1, a)
    else .ok { a with ctx := { a.ctx with sslCtx := .setUp } }

/-- The handshake, and what the session has authenticated if it succeeds. -/
def shakeHands (env : ConnectEnv) (crts : Option Bundle) (a : Attempt) : Stage :=
  let ret := handshakeLoop (env.handshake.answers a.ctx.sslConf a.ctx.caCert crts)
  if ret ≠ 0 then .error (ret, a)
  else
    let auth := env.handshake.auth a.ctx.sslConf a.ctx.caCert crts
    .ok { a with ctx := { a.ctx with sslCtx := .established auth } }

/-- `stop_ssl_socket`: closes the socket if there is one, then zeroes the
context up to its two timeouts. The socket field is zero afterwards, too. -/
def stopSslSocket (a : Attempt) : Attempt :=
  { ctx :=
      { socketTimeout := a.ctx.socketTimeout, handshakeTimeout := a.ctx.handshakeTimeout }
    calls := if 0 ≤ a.ctx.socket then a.calls ++ [.closed a.ctx.socket] else a.calls }

/-- Checks the verification flags and frees the parsed certificates. -/
def verifyPeer (env : ConnectEnv) (args : SslArgs) (a : Attempt) : Stage :=
  if env.verifyResult ≠ 0 then .error (-1, stopSslSocket a)
  else
    .ok { a with
      ctx := { a.ctx with
        caCert := if args.rootCABuff = none then a.ctx.caCert else none
        clientCert := if args.cliCert = none then a.ctx.clientCert else none
        clientKey := if args.cliKey = none then a.ctx.clientKey else none } }

/-- Everything between the TCP connection and the handshake. -/
def prepareSession (env : ConnectEnv) (crts : Option Bundle) (args : SslArgs) (a : Attempt) :
    Stage := do
  let a ← setOptions env a
  let a ← configure env args a
  let a ← trust env crts args a
  let a ← ownCertificate env args a
  setupSession env args a

/-- The stages up to a completed handshake. -/
def establish (env : ConnectEnv) (crts : Option Bundle) (args : SslArgs)
    (ctx : SslClientContext) : Stage := do
  let a ← openSocket env { ctx with socket := -1 }
  let a ← connectTcp env args a
  let a ← prepareSession env crts args a
  shakeHands env crts a

/-- The stages after the check of the arguments. -/
def startStages (env : ConnectEnv) (crts : Option Bundle) (args : SslArgs)
    (ctx : SslClientContext) : Stage := do
  let a ← establish env crts args ctx
  verifyPeer env args a

/-- `start_ssl_client`: a negative value, or the socket of the session. -/
def startSslClient (env : ConnectEnv) (crts : Option Bundle) (args : SslArgs)
    (ctx : SslClientContext) : Int × Attempt :=
  if args.noTrust then (-1, { ctx := ctx })
  else
    match startStages env crts args ctx with
    | .error (ret, a) => (ret, a)
    | .ok a => (a.ctx.socket, a)

/-- `data_to_read`: `read` is what `mbedtls_ssl_read` of no byte returns. -/
def dataToRead (read : Int) (bytesAvail : Nat) : Int :=
  if ¬ wants read ∧ read < 0 then read else bytesAvail

/-- One call of `mbedtls_ssl_write` in time. -/
def writeTurn (s : Unit) (ret : Int) : Unit × Option Int :=
  if 0 < ret then (s, some ret)
  else if ¬ wants ret ∧ ret < 0 then (s, some ret)
  else (s, none)

/-- The call after which `socket_timeout` has passed. -/
def writeLate (s : Unit) (ret : Int) : Unit × Int :=
  if 0 < ret then (s, ret) else (s, -1)

/-- `send_ssl_data`: the count of the call that took something, or an error. -/
def sendSslData (answers : Timed Int) : Int :=
  (poll writeTurn writeLate answers ()).2

end ArduinoBeken.Tls
