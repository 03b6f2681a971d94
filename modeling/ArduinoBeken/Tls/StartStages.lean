import ArduinoBeken.Library.Stages
import ArduinoBeken.Tls.Calls

/-!
# What the Stages of a Connect Do

Two things are followed through the stages of `start_ssl_client`: the socket
with the calls made on it, and the trust the configuration ends up with.

Between the TCP connection and the check of the verification flags no stage
touches the socket, so a connect that fails there leaves the socket open in
the context. The failures before it have no socket left, and the last one
has closed it inside `stop_ssl_socket`, after which the field reads zero.

## Main definitions

* `Same`: The socket and the calls are those of an earlier attempt.
* `SocketExit`: The shapes in which a failing connect leaves the socket.
* `Trust`: The trust the configuration holds and the certificate behind it.
* `Loaded`: The trust that the arguments ask for, over what was there before.

## Theorems

* `establish_socket`: How the stages leave the socket.
* `startStages_trust`: A connect that succeeds shook hands under the loaded
  trust.
-/

namespace ArduinoBeken.Tls

open Net (Outcome)
open Stages (Ends ends_bind ends_mono ends_ite ends_ok ends_error)

/-! ### The socket -/

/-- The socket and the calls are those of an earlier attempt. -/
def Same (a b : Attempt) : Prop :=
  b.ctx.socket = a.ctx.socket ∧ b.calls = a.calls

theorem Same.rfl (a : Attempt) : Same a a := ⟨Eq.refl _, Eq.refl _⟩

theorem Same.trans (a b c : Attempt) (hab : Same a b) (hbc : Same b c) : Same a c :=
  ⟨hbc.1.trans hab.1, hbc.2.trans hab.2⟩

/-- A stage that keeps the socket, and leaves with an error code. -/
def KeepsSocket (stage : Attempt → Stage) : Prop :=
  ∀ a, Ends (stage a) (Same a) fun ret b => ret < 0 ∧ Same a b

/-- What is not success is negative. -/
theorem MbedtlsRet.neg (ret : MbedtlsRet) (h : ret.1 ≠ 0) : ret.1 < 0 := by
  have hle := ret.2
  omega

/-- Setting the socket's options keeps the socket. -/
theorem setOptions_keepsSocket (env : ConnectEnv) : KeepsSocket (setOptions env) := by
  intro a
  unfold setOptions
  refine ends_ite _ _ _ _ _ ?_ ?_
  · intro _
    exact ⟨by decide, Same.rfl a⟩
  · intro _
    exact Same.rfl a

/-- Making the configuration keeps the socket. -/
theorem configure_keepsSocket (env : ConnectEnv) (args : SslArgs) :
    KeepsSocket (configure env args) := by
  intro a
  unfold configure
  refine ends_ite _ _ _ _ _ (fun hseed => ⟨hseed, Same.rfl a⟩) fun _ => ?_
  refine ends_ite _ _ _ _ _ (fun hdef => ⟨MbedtlsRet.neg _ hdef, Same.rfl a⟩) fun _ => ?_
  cases args.alpnProtos with
  | none => exact Same.rfl a
  | some protos =>
      refine ends_ite _ _ _ _ _ (fun halpn => ⟨MbedtlsRet.neg _ halpn, Same.rfl a⟩) fun _ => ?_
      exact Same.rfl a

/-- Loading what is trusted keeps the socket. -/
theorem trust_keepsSocket (env : ConnectEnv) (crts : Option Bundle) (args : SslArgs) :
    KeepsSocket (trust env crts args) := by
  intro a
  unfold trust
  -- the sources, in the order they are asked for
  refine ends_ite _ _ _ _ _ (fun _ => Same.rfl a) fun _ => ?_
  cases args.rootCABuff with
  | some pem => exact ends_ite _ _ _ _ _ (fun hpem => ⟨hpem, Same.rfl a⟩) fun _ => Same.rfl a
  | none =>
      refine ends_ite _ _ _ _ _ (fun _ => ?_) fun _ => ?_
      · cases crts with
        | none => exact ⟨by decide, Same.rfl a⟩
        | some bundle => exact Same.rfl a
      · cases args.pskIdent with
        | none => exact ⟨by decide, Same.rfl a⟩
        | some ident =>
            cases args.psKey with
            | none => exact ⟨by decide, Same.rfl a⟩
            | some key =>
                simp only
                cases pskBytes key with
                | none => exact ⟨by decide, Same.rfl a⟩
                | some psk =>
                    refine ends_ite _ _ _ _ _ (fun hpsk => ?_) fun _ => Same.rfl a
                    exact ⟨MbedtlsRet.neg _ hpsk, Same.rfl a⟩

/-- Loading the own certificate keeps the socket. -/
theorem ownCertificate_keepsSocket (env : ConnectEnv) (args : SslArgs) :
    KeepsSocket (ownCertificate env args) := by
  intro a
  unfold ownCertificate
  split
  · refine ends_ite _ _ _ _ _ (fun hcert => ⟨hcert, Same.rfl a⟩) fun _ => ?_
    refine ends_ite _ _ _ _ _ (fun hkey => ⟨MbedtlsRet.neg _ hkey, Same.rfl a⟩) fun _ => ?_
    exact Same.rfl a
  · exact Same.rfl a

/-- Setting up the session keeps the socket. -/
theorem setupSession_keepsSocket (env : ConnectEnv) (args : SslArgs) :
    KeepsSocket (setupSession env args) := by
  intro a
  unfold setupSession
  refine ends_ite _ _ _ _ _ (fun hname => ⟨MbedtlsRet.neg _ hname, Same.rfl a⟩) fun _ => ?_
  exact ends_ite _ _ _ _ _ (fun hsetup => ⟨MbedtlsRet.neg _ hsetup, Same.rfl a⟩)
    fun _ => Same.rfl a

/-- The handshake loop returns zero or an error code. -/
theorem handshakeLoop_nonpos (answers : Polling.Timed MbedtlsRet) : handshakeLoop answers ≤ 0 := by
  refine Polling.poll_rule (fun _ => True) (fun _ r => r ≤ 0) handshakeTurn handshakeLate
    ?_ (fun _ _ _ _ _ => trivial) ?_ answers () trivial
  · intro s ret s' r _ hturn
    unfold handshakeTurn at hturn
    split at hturn
    · cases hturn
      exact Int.le_refl 0
    · split at hturn
      · cases hturn
        exact ret.2
      · cases hturn
  · intro s ret _
    unfold handshakeLate
    split
    · exact Int.le_refl 0
    · split
      · exact ret.2
      · simp

/-- The handshake keeps the socket. -/
theorem shakeHands_keepsSocket (env : ConnectEnv) (crts : Option Bundle) :
    KeepsSocket (shakeHands env crts) := by
  intro a
  unfold shakeHands
  refine ends_ite _ _ _ _ _ (fun hret => ⟨?_, Same.rfl a⟩) fun _ => Same.rfl a
  have hle := handshakeLoop_nonpos (env.handshake.answers a.ctx.sslConf a.ctx.caCert crts)
  omega

/-- Two stages that keep the socket do so one after the other. -/
theorem KeepsSocket.comp (f g : Attempt → Stage) (hf : KeepsSocket f) (hg : KeepsSocket g) :
    KeepsSocket fun a => f a >>= g := by
  intro a
  refine ends_bind _ _ (Same a) _ _ (hf a) fun b hab => ?_
  refine ends_mono _ _ _ _ _ (hg b) (fun c hbc => Same.trans a b c hab hbc) ?_
  rintro ret c ⟨hret, hbc⟩
  exact ⟨hret, Same.trans a b c hab hbc⟩

/-- All stages before the handshake keep the socket. -/
theorem prepareSession_keepsSocket (env : ConnectEnv) (crts : Option Bundle) (args : SslArgs) :
    KeepsSocket (prepareSession env crts args) :=
  KeepsSocket.comp _ _ (setOptions_keepsSocket env) <|
    KeepsSocket.comp _ _ (configure_keepsSocket env args) <|
      KeepsSocket.comp _ _ (trust_keepsSocket env crts args) <|
        KeepsSocket.comp _ _ (ownCertificate_keepsSocket env args)
          (setupSession_keepsSocket env args)

/-- The shapes in which a connect that gets no session leaves the socket, by
the stage that left. -/
inductive SocketExit (env : ConnectEnv) (args : SslArgs) (b : Attempt) : Prop where
  | noSocket (hfd : env.lwipSocket < 0) (hsock : b.ctx.socket = env.lwipSocket)
      (hcalls : b.calls = [])
  | noTcp (hfd : 0 ≤ env.lwipSocket) (htcp : env.tcpFails) (hsock : b.ctx.socket = -1)
      (hcalls : b.calls = [.opened env.lwipSocket,
        .connecting env.lwipSocket args.ip args.port, .closed env.lwipSocket])
  | noSession (hfd : 0 ≤ env.lwipSocket) (htcp : ¬ env.tcpFails)
      (hsock : b.ctx.socket = env.lwipSocket)
      (hcalls : b.calls = [.opened env.lwipSocket,
        .connecting env.lwipSocket args.ip args.port])

/-- The socket is open in the context, and connected. -/
structure SocketOpen (env : ConnectEnv) (args : SslArgs) (b : Attempt) : Prop where
  fd : 0 ≤ env.lwipSocket
  tcp : ¬ env.tcpFails
  socket : b.ctx.socket = env.lwipSocket
  calls : b.calls = [.opened env.lwipSocket, .connecting env.lwipSocket args.ip args.port]

/-- How the stages up to the handshake leave the socket: open when they all
went on, and in one of three shapes when one of them left. -/
theorem establish_socket (env : ConnectEnv) (crts : Option Bundle) (args : SslArgs)
    (ctx : SslClientContext) :
    Ends (establish env crts args ctx) (SocketOpen env args)
      fun ret b => ret < 0 ∧ SocketExit env args b := by
  -- the socket is open from here on, connected after the second stage
  refine ends_bind _ _ (fun a => 0 ≤ env.lwipSocket ∧ a.ctx.socket = env.lwipSocket ∧
    a.calls = [.opened env.lwipSocket]) _ _ ?_ ?_
  · unfold openSocket
    refine ends_ite _ _ _ _ _ (fun hfd => ⟨hfd, .noSocket hfd rfl rfl⟩) fun hfd => ?_
    exact ⟨by omega, rfl, rfl⟩
  rintro a ⟨hfd, hsock, hcalls⟩
  refine ends_bind _ _ (SocketOpen env args) _ _ ?_ fun b hb => ?_
  · unfold connectTcp
    refine ends_ite _ _ _ _ _ (fun htcp => ?_) fun htcp => ?_
    · refine ⟨by decide, .noTcp hfd htcp rfl ?_⟩
      simp [Attempt.dropSocket, hsock, hcalls]
    · exact ⟨hfd, htcp, hsock, by simp [hsock, hcalls]⟩
  have hkeep : ∀ c, Same b c → SocketOpen env args c :=
    fun c hc => ⟨hb.fd, hb.tcp, hc.1.trans hb.socket, hc.2.trans hb.calls⟩
  have hleave : ∀ (ret : Int) (c : Attempt), ret < 0 ∧ Same b c → ret < 0 ∧ SocketExit env args c :=
    fun ret c hc => ⟨hc.1, .noSession hb.fd hb.tcp (hkeep c hc.2).socket (hkeep c hc.2).calls⟩
  refine ends_bind _ _ (Same b) _ _ ?_ fun c hbc => ?_
  · exact ends_mono _ _ _ _ _ (prepareSession_keepsSocket env crts args b) (fun _ h => h) hleave
  refine ends_mono _ _ _ _ _ (shakeHands_keepsSocket env crts c) ?_ ?_
  · exact fun d hcd => hkeep d (Same.trans b c d hbc hcd)
  · exact fun ret d hcd => hleave ret d ⟨hcd.1, Same.trans b c d hbc hcd.2⟩

/-! ### The trust -/

/-- The trust in a configuration, and the certificate its chain points at. -/
structure Trust where
  authmode : AuthMode
  caChain : Option CaChain
  verify : Bool
  psk : Option (CStr × List UInt8)
  caCert : Option CStr

/-- What a configuration has the handshake check. -/
def trustOf (conf : SslConfig) (caCert : Option CStr) : Trust where
  authmode := conf.authmode
  caChain := conf.caChain
  verify := conf.verify
  psk := conf.psk
  caCert := caCert

/-- What the handshake of an attempt checks. -/
def Attempt.trust (a : Attempt) : Trust :=
  trustOf a.ctx.sslConf a.ctx.caCert

/-- What a configuration lets through depends on the trust in it alone. -/
theorem permits_of_trust (conf conf' : SslConfig) (caCert caCert' : Option CStr)
    (crts : Option Bundle) (auth : Auth) (h : trustOf conf caCert = trustOf conf' caCert') :
    Permits conf caCert crts auth ↔ Permits conf' caCert' crts auth := by
  simp only [trustOf, Trust.mk.injEq] at h
  rcases h with ⟨hmode, hchain, hverify, hpsk, hcert⟩
  cases auth <;> simp only [Permits, hmode, hchain, hverify, hpsk, hcert]

/-- The trust that the arguments ask for, over the presets `base`. -/
inductive Loaded (crts : Option Bundle) (args : SslArgs) (base t : Trust) : Prop where
  | insecure (hins : args.insecure = true) (ht : t = { base with authmode := .verifyNone })
  | chain (pem : CStr) (hins : args.insecure = false) (hpem : args.rootCABuff = some pem)
      (ht : t = { base with
        authmode := .verifyRequired, caChain := some .own, caCert := some pem })
  | bundle (hins : args.insecure = false) (hpem : args.rootCABuff = none)
      (huse : args.useRootCABundle = true) (hcrts : crts ≠ none)
      (ht : t = { base with caChain := some .dummy, verify := true })
  | psk (ident key : CStr) (bytes : List UInt8) (hins : args.insecure = false)
      (hpem : args.rootCABuff = none) (huse : args.useRootCABundle = false)
      (hident : args.pskIdent = some ident) (hkey : args.psKey = some key)
      (hbytes : pskBytes key = some bytes) (ht : t = { base with psk := some (ident, bytes) })

/-- A stage that goes on goes on with what `Q` says; how it leaves is open. -/
abbrev GoesOn (x : Stage) (Q : Attempt → Prop) : Prop :=
  Ends x Q fun _ _ => True

/-- The configuration trusts what it was set to and the chain the context still has. -/
theorem configure_trust (env : ConnectEnv) (args : SslArgs) (a : Attempt) :
    GoesOn (configure env args a) fun b =>
      b.trust = trustOf (env.presets.apply a.ctx.sslConf) a.ctx.caCert := by
  unfold configure
  refine ends_ite _ _ _ _ _ (fun _ => trivial) fun _ => ?_
  refine ends_ite _ _ _ _ _ (fun _ => trivial) fun _ => ?_
  cases args.alpnProtos with
  | none => exact rfl
  | some protos => exact ends_ite _ _ _ _ _ (fun _ => trivial) fun _ => rfl

/-- Where the stage goes on, what is trusted was loaded from the arguments. -/
theorem trust_loaded (env : ConnectEnv) (crts : Option Bundle) (args : SslArgs) (a : Attempt) :
    GoesOn (trust env crts args a) fun b => Loaded crts args a.trust b.trust := by
  unfold trust
  -- whichever source is taken, the configuration holds it
  refine ends_ite _ _ _ _ _ (fun hins => .insecure hins rfl) fun hins => ?_
  have hins : args.insecure = false := by simpa using hins
  cases hpem : args.rootCABuff with
  | some pem => exact ends_ite _ _ _ _ _ (fun _ => trivial) fun _ => .chain pem hins hpem rfl
  | none =>
      refine ends_ite _ _ _ _ _ (fun huse => ?_) fun huse => ?_
      · cases crts with
        | none => trivial
        | some bundle => exact .bundle hins hpem huse (by simp) rfl
      · have huse : args.useRootCABundle = false := by simpa using huse
        cases hident : args.pskIdent with
        | none => trivial
        | some ident =>
            cases hkey : args.psKey with
            | none => trivial
            | some key =>
                simp only
                cases hbytes : pskBytes key with
                | none => trivial
                | some bytes =>
                    refine ends_ite _ _ _ _ _ (fun _ => trivial) fun _ => ?_
                    exact .psk ident key bytes hins hpem huse hident hkey hbytes rfl

/-- The own certificate changes nothing of what is trusted. -/
theorem ownCertificate_trust (env : ConnectEnv) (args : SslArgs) (a : Attempt) :
    GoesOn (ownCertificate env args a) fun b => b.trust = a.trust := by
  unfold ownCertificate
  split
  · refine ends_ite _ _ _ _ _ (fun _ => trivial) fun _ => ?_
    exact ends_ite _ _ _ _ _ (fun _ => trivial) fun _ => rfl
  · exact rfl

/-- Setting up the session changes nothing of what is trusted. -/
theorem setupSession_trust (env : ConnectEnv) (args : SslArgs) (a : Attempt) :
    GoesOn (setupSession env args a) fun b => b.trust = a.trust := by
  unfold setupSession
  refine ends_ite _ _ _ _ _ (fun _ => trivial) fun _ => ?_
  exact ends_ite _ _ _ _ _ (fun _ => trivial) fun _ => rfl

/-- Before the handshake, what is trusted was loaded from the arguments. -/
theorem prepareSession_trust (env : ConnectEnv) (crts : Option Bundle) (args : SslArgs)
    (a : Attempt) :
    GoesOn (prepareSession env crts args a) fun b =>
      Loaded crts args (trustOf (env.presets.apply a.ctx.sslConf) a.ctx.caCert) b.trust := by
  refine ends_bind _ _ (fun b => b = a) _ _ ?_ ?_
  · unfold setOptions
    exact ends_ite _ _ _ _ _ (fun _ => trivial) fun _ => rfl
  rintro a rfl
  refine ends_bind _ _ _ _ _ (configure_trust env args a) fun b hb => ?_
  refine ends_bind _ _ _ _ _ (trust_loaded env crts args b) fun c hc => ?_
  refine ends_bind _ _ _ _ _ (ownCertificate_trust env args c) fun d hd => ?_
  refine ends_mono _ _ _ _ _ (setupSession_trust env args d) (fun e he => ?_) fun _ _ h => h
  rw [he, hd, ← hb]
  exact hc

/-- A completed handshake was done under the loaded trust, and authenticated
the peer in a way this trust permits. -/
theorem establish_trust (env : ConnectEnv) (crts : Option Bundle) (args : SslArgs)
    (ctx : SslClientContext) :
    GoesOn (establish env crts args ctx) fun b => ∃ auth,
      b.ctx.sslCtx = .established auth ∧ Permits b.ctx.sslConf b.ctx.caCert crts auth ∧
        Loaded crts args (trustOf (env.presets.apply ctx.sslConf) ctx.caCert) b.trust := by
  refine ends_bind _ _ (fun a => a.ctx.sslConf = ctx.sslConf ∧ a.ctx.caCert = ctx.caCert)
    _ _ ?_ ?_
  · unfold openSocket
    exact ends_ite _ _ _ _ _ (fun _ => trivial) fun _ => ⟨rfl, rfl⟩
  rintro a ⟨hconf, hcert⟩
  refine ends_bind _ _ (fun a => a.ctx.sslConf = ctx.sslConf ∧ a.ctx.caCert = ctx.caCert)
    _ _ ?_ ?_
  · unfold connectTcp
    exact ends_ite _ _ _ _ _ (fun _ => trivial) fun _ => ⟨hconf, hcert⟩
  rintro b ⟨hconf, hcert⟩
  refine ends_bind _ _ _ _ _ (prepareSession_trust env crts args b) fun c hc => ?_
  rw [hconf, hcert] at hc
  unfold shakeHands
  refine ends_ite _ _ _ _ _ (fun _ => trivial) fun hret => ?_
  exact ⟨_, rfl, env.handshake.enforces _ _ _ (not_not.1 hret), hc⟩

/-- A connect that goes through keeps the session of its handshake, and the
configuration, while the parsed certificates are freed. -/
theorem startStages_trust (env : ConnectEnv) (crts : Option Bundle) (args : SslArgs)
    (ctx : SslClientContext) :
    GoesOn (startStages env crts args ctx) fun b => ∃ auth caCert,
      b.ctx.sslCtx = .established auth ∧ Permits b.ctx.sslConf caCert crts auth ∧
        Loaded crts args (trustOf (env.presets.apply ctx.sslConf) ctx.caCert)
          (trustOf b.ctx.sslConf caCert) ∧
        b.ctx.caCert = if args.rootCABuff = none then caCert else none := by
  refine ends_bind _ _ _ _ _ (establish_trust env crts args ctx) ?_
  rintro a ⟨auth, hauth, hpermits, hloaded⟩
  unfold verifyPeer
  refine ends_ite _ _ _ _ _ (fun _ => trivial) fun _ => ?_
  exact ⟨auth, a.ctx.caCert, hauth, hpermits, hloaded, rfl⟩

/-! ### The client after a connect -/

/-- The client that `start_ssl_client` left with an error is stopped. -/
def WiFiClientSecure.giveUp (c : WiFiClientSecure) (ret : Int) (b : Attempt) :
    Outcome WiFiClientSecure Int :=
  let stopped := WiFiClientSecure.stop { c with sslclient := b.ctx, lastError := ret }
  ⟨0, stopped.client, b.calls ++ stopped.calls⟩

/-- How a connect ends once its arguments are settled. -/
inductive Started (c : WiFiClientSecure) (env : ConnectEnv) (crts : Option Bundle)
    (args : SslArgs) (out : Outcome WiFiClientSecure Int) : Prop where
  | refused (htrust : args.noTrust) (hout : out = c.giveUp (-1) { ctx := c.sslclient })
  | failed (ret : Int) (b : Attempt) (htrust : ¬ args.noTrust) (hret : ret < 0)
      (hstages : establish env crts args c.sslclient = .error (ret, b))
      (hexit : SocketExit env args b) (hout : out = c.giveUp ret b)
  | unverified (b : Attempt) (htrust : ¬ args.noTrust) (hopen : SocketOpen env args b)
      (hstages : establish env crts args c.sslclient = .ok b) (hflags : env.verifyResult ≠ 0)
      (hout : out = c.giveUp (-1) (stopSslSocket b))
  | succeeded (b : Attempt) (htrust : ¬ args.noTrust) (hopen : SocketOpen env args b)
      (hflags : env.verifyResult = 0)
      (hstages : startStages env crts args c.sslclient = .ok b)
      (hout : out =
        ⟨1, { c with sslclient := b.ctx, lastError := 0, connected := true }, b.calls⟩)

/-- `start_ssl_client` shakes hands with what its stages loaded. -/
theorem startClient_started (c : WiFiClientSecure) (env : ConnectEnv) (crts : Option Bundle)
    (args : SslArgs) : Started c env crts args (c.startClient env crts args) := by
  unfold WiFiClientSecure.startClient startSslClient
  -- Without any trust the start is refused at once.
  by_cases htrust : args.noTrust
  · simp only [if_pos htrust]
    exact .refused htrust rfl
  simp only [if_neg htrust]
  have hsocket := establish_socket env crts args c.sslclient
  cases hest : establish env crts args c.sslclient with
  -- A stage has failed, and the socket is as that stage left it.
  | error e =>
      rw [hest] at hsocket
      rcases hsocket with ⟨hret, hexit⟩
      have hstages : startStages env crts args c.sslclient = .error e := by
        simp only [startStages, hest]
        rfl
      simp only [hstages, if_pos hret]
      exact .failed e.1 e.2 htrust hret hest hexit rfl
  | ok a =>
      rw [hest] at hsocket
      have hstages : startStages env crts args c.sslclient = verifyPeer env args a := by
        simp only [startStages, hest]
        rfl
      -- The session is established, and the certificate is verified last.
      by_cases hflags : env.verifyResult = 0
      · have hok : ∃ b, verifyPeer env args a = .ok b ∧ Same a b := by
          refine ⟨_, if_neg (not_not.2 hflags), rfl, rfl⟩
        rcases hok with ⟨b, hb, hsame⟩
        have hopen : SocketOpen env args b :=
          ⟨hsocket.fd, hsocket.tcp, hsame.1.trans hsocket.socket, hsame.2.trans hsocket.calls⟩
        have hret : ¬ b.ctx.socket < 0 := by
          rw [hopen.socket]
          exact Int.not_lt.2 hopen.fd
        simp only [hstages, hb, if_neg hret]
        exact .succeeded b htrust hopen hflags (hstages.trans hb) rfl
      · -- A certificate that is not accepted ends the session, and the socket with it.
        have herr : verifyPeer env args a = .error (-1, stopSslSocket a) := if_pos hflags
        simp only [hstages, herr]
        exact .unverified a htrust hsocket hest hflags rfl

/-- A connect that fails returns zero, so one that returns one went through
every stage. -/
theorem startClient_succeeded (c : WiFiClientSecure) (env : ConnectEnv) (crts : Option Bundle)
    (args : SslArgs) (h : (c.startClient env crts args).result = 1) :
    ∃ b, startStages env crts args c.sslclient = .ok b ∧ c.startClient env crts args =
      ⟨1, { c with sslclient := b.ctx, lastError := 0, connected := true }, b.calls⟩ := by
  cases startClient_started c env crts args with
  | refused _ hout => exact absurd (hout ▸ h) (by simp [WiFiClientSecure.giveUp])
  | failed _ _ _ _ _ _ hout => exact absurd (hout ▸ h) (by simp [WiFiClientSecure.giveUp])
  | unverified _ _ _ _ _ hout => exact absurd (hout ▸ h) (by simp [WiFiClientSecure.giveUp])
  | succeeded b _ _ _ hstages hout => exact ⟨b, hstages, hout⟩

/-- The sources of trust in the arguments are those of the fields. -/
structure WiFiClientSecure.Selects (c : WiFiClientSecure) (args : SslArgs) : Prop where
  insecure : args.insecure = c.useInsecure
  rootCABuff : args.rootCABuff = if c.hasPsk then none else c.caCert
  useRootCABundle : args.useRootCABundle = if c.hasPsk then false else c.useCaBundle
  pskIdent : args.pskIdent = if c.hasPsk then c.pskIdent else none
  psKey : args.psKey = if c.hasPsk then c.psKey else none

/-- A pre-shared key goes before a certificate. -/
theorem pskArgs_selects (c : WiFiClientSecure) (hpsk : c.hasPsk) (ip : UInt32) (port : UInt16)
    (host : CStr) : c.Selects (c.pskArgs ip port host c.pskIdent c.psKey) := by
  constructor <;> simp [WiFiClientSecure.pskArgs, hpsk]

/-- Without a key shared beforehand, the certificates of the object are selected. -/
theorem certArgs_selects (c : WiFiClientSecure) (hpsk : ¬ c.hasPsk) (ip : UInt32) (port : UInt16)
    (host : Option CStr) : c.Selects (c.certArgs ip port host c.caCert c.cert c.privateKey) := by
  constructor <;> simp [WiFiClientSecure.certArgs, hpsk]

/-- `connect` with a host name selects what the object is set to. -/
theorem hostArguments_selects (c : WiFiClientSecure) (env : ConnectEnv) (host : CStr)
    (port : UInt16) (args : SslArgs) (h : c.hostArguments env host port = some args) :
    c.Selects args := by
  rcases Option.map_eq_some_iff.1 h with ⟨ip, -, rfl⟩
  split
  · exact pskArgs_selects c ‹_› _ _ _
  · exact certArgs_selects c ‹_› _ _ _

/-- `connect` with an address selects what the object is set to. -/
theorem ipArguments_selects (c : WiFiClientSecure) (env : ConnectEnv) (ip : UInt32)
    (port : UInt16) (args : SslArgs) (h : c.ipArguments env ip port = some args) :
    c.Selects args := by
  unfold WiFiClientSecure.ipArguments at h
  split at h
  · rcases Option.map_eq_some_iff.1 h with ⟨found, -, rfl⟩
    exact pskArgs_selects c ‹_› _ _ _
  · cases h
    exact certArgs_selects c ‹_› _ _ _

/-- The timeout is no source of trust. -/
theorem WiFiClientSecure.Selects.of_timeout {c : WiFiClientSecure} {timeout : Int}
    {args : SslArgs} (h : Selects { c with timeout := timeout } args) : c.Selects args :=
  ⟨h.insecure, h.rootCABuff, h.useRootCABundle, h.pskIdent, h.psKey⟩

/-- A plain connect starts with the arguments that the fields select. -/
theorem arguments_selects (c : WiFiClientSecure) (env : ConnectEnv) (overload : Overload)
    (args : SslArgs) (hplain : overload.plain = true)
    (h : c.arguments env overload = some args) : c.Selects args := by
  cases overload with
  | host host port => exact hostArguments_selects c env host port args h
  | hostTimeout host port timeout =>
      exact (hostArguments_selects _ env host port args h).of_timeout
  | ip ip port => exact ipArguments_selects c env ip port args h
  | ipTimeout ip port timeout =>
      exact (ipArguments_selects _ env ip port args h).of_timeout
  | _ => exact absurd hplain (by simp [Overload.plain])

/-- An address that gives no arguments failed its lookup. -/
theorem lookup_of_ipArguments (c : WiFiClientSecure) (env : ConnectEnv) (ip : UInt32)
    (port : UInt16) (h : c.ipArguments env ip port = none) :
    ∃ host, env.hostByName host = none := by
  unfold WiFiClientSecure.ipArguments at h
  split at h
  · exact ⟨_, Option.map_eq_none_iff.1 h⟩
  · exact absurd h (by simp)

/-- Only a failed lookup keeps a connect from starting. -/
theorem lookup_of_arguments (c : WiFiClientSecure) (env : ConnectEnv) (overload : Overload)
    (h : c.arguments env overload = none) : ∃ host, env.hostByName host = none := by
  cases overload with
  | host host port => exact ⟨host, Option.map_eq_none_iff.1 h⟩
  | hostTimeout host port timeout => exact ⟨host, Option.map_eq_none_iff.1 h⟩
  | ip ip port => exact lookup_of_ipArguments c env ip port h
  | ipTimeout ip port timeout => exact lookup_of_ipArguments _ env ip port h
  | hostCert host port caCert cert privateKey => exact ⟨host, Option.map_eq_none_iff.1 h⟩
  | ipCert ip port caCert cert privateKey => exact absurd h (by simp [WiFiClientSecure.arguments])
  | ipHostCert ip port host caCert cert privateKey =>
      exact absurd h (by simp [WiFiClientSecure.arguments])
  | hostPsk host port pskIdent psKey => exact ⟨host, Option.map_eq_none_iff.1 h⟩
  | ipPsk ip port pskIdent psKey => exact ⟨_, Option.map_eq_none_iff.1 h⟩

/-- The fields that the setters write are untouched. -/
def WiFiClientSecure.KeepsSettings (c d : WiFiClientSecure) : Prop :=
  d = { c with
    sslclient := d.sslclient
    connected := d.connected
    lastError := d.lastError
    peeked := d.peeked }

/-- `stop` keeps the settings. -/
theorem stop_settings (c : WiFiClientSecure) : c.KeepsSettings c.stop.client := by
  unfold WiFiClientSecure.KeepsSettings
  rw [WiFiClientSecure.stop_client]

/-- A failed attempt keeps the settings. -/
theorem giveUp_settings (c : WiFiClientSecure) (ret : Int) (b : Attempt) :
    c.KeepsSettings (c.giveUp ret b).client := by
  unfold WiFiClientSecure.KeepsSettings WiFiClientSecure.giveUp
  simp only [WiFiClientSecure.stop_client]

/-- An attempt keeps the settings. -/
theorem startClient_settings (c : WiFiClientSecure) (env : ConnectEnv) (crts : Option Bundle)
    (args : SslArgs) : c.KeepsSettings (c.startClient env crts args).client := by
  cases startClient_started c env crts args with
  | refused _ hout => exact hout ▸ giveUp_settings c _ _
  | failed ret b _ _ _ _ hout => exact hout ▸ giveUp_settings c ret b
  | unverified _ _ _ _ _ hout => exact hout ▸ giveUp_settings c _ _
  | succeeded _ _ _ _ _ hout => exact hout ▸ rfl

/-- A connect leaves no parsed certificate behind. -/
theorem startClient_caCert (c : WiFiClientSecure) (env : ConnectEnv) (crts : Option Bundle)
    (args : SslArgs) (h : c.sslclient.caCert = none) :
    (c.startClient env crts args).client.sslclient.caCert = none := by
  cases startClient_started c env crts args with
  | refused _ hout => rw [hout, WiFiClientSecure.giveUp, WiFiClientSecure.stop_client]
  | failed _ _ _ _ _ _ hout => rw [hout, WiFiClientSecure.giveUp, WiFiClientSecure.stop_client]
  | unverified _ _ _ _ _ hout =>
      rw [hout, WiFiClientSecure.giveUp, WiFiClientSecure.stop_client]
  | succeeded b _ _ _ hstages hout =>
      have htrust := startStages_trust env crts args c.sslclient
      rw [hstages] at htrust
      rcases htrust with ⟨auth, caCert, -, -, hloaded, hcert⟩
      rw [hout]
      change b.ctx.caCert = none
      rw [hcert]
      split
      · rename_i hroot
        -- of the sources of trust only a chain sets the certificate
        cases hloaded with
        | insecure hins ht => exact (congrArg Trust.caCert ht).trans h
        | chain pem hins hpem ht => exact absurd (hroot.symm.trans hpem) (by simp)
        | bundle hins hpem huse hcrts ht => exact (congrArg Trust.caCert ht).trans h
        | psk ident key bytes hins hpem huse hident hkey hbytes ht =>
            exact (congrArg Trust.caCert ht).trans h
      · rfl

/-- Reading and writing keeps what every stop and every look ahead keeps. -/
theorem IoSteps.keeps (I : WiFiClientSecure → Prop)
    (hlook : ∀ c peeked, I c → I { c with peeked := peeked })
    (hstop : ∀ c, I c → I c.stop.client) (c d : WiFiClientSecure) (calls : List Net.SocketCall)
    (h : IoSteps c calls d) (hc : I c) : I d := by
  induction h with
  | done c => exact hc
  | look c d calls peeked _ ih => exact ih (hlook c peeked hc)
  | tls c d call calls _ _ ih => exact ih hc
  | stop c d calls _ _ ih => exact ih (hstop c hc)

/-- Steps that keep the settings compose. -/
theorem KeepsSettings.trans (c d e : WiFiClientSecure) (h : c.KeepsSettings d)
    (h' : d.KeepsSettings e) : c.KeepsSettings e := by
  unfold WiFiClientSecure.KeepsSettings at *
  rw [h', h]

/-- Reading and writing keep the settings. -/
theorem io_settings (c d : WiFiClientSecure) (calls : List Net.SocketCall)
    (h : IoSteps c calls d) : c.KeepsSettings d := by
  refine h.keeps c.KeepsSettings ?_ ?_ c d calls rfl
  · exact fun d peeked hd => KeepsSettings.trans c d _ hd rfl
  · exact fun d hd => KeepsSettings.trans c d _ hd (stop_settings d)

end ArduinoBeken.Tls
