import Mathlib.Data.Option.NAry
import ArduinoBeken.Library.Run
import ArduinoBeken.Tls.StartStages

/-!
# The Trust Policy of a Secure Client

A sketch configures who it trusts with four setters, and expects a connect to
authenticate the server by the source it configured last. The setters write
independent fields, though, and a connect picks among them in a fixed order,
over a configuration that may still carry the trust of an earlier connection.

`Policy` runs one client through any sequence of calls. It remembers what has
been configured: a setter puts its source in front, with a null argument it
withdraws its source, and `setInsecure` withdraws all the others. The law of
a connect is that whatever the network and the server do, a session that comes
about is authenticated by the source in front, and unauthenticated only right
after `setInsecure`.

## Main definitions

* `TrustSource`, `Setting`: The sources of trust, and the calls that set them.
* `Policy`: The client with what has been configured.
* `PolicyKept`: The law of one connect.
* `Undisturbed`: The states in which the fixed order picks the source in front.

## Theorems

* `connectBy_permitted`: A session is authenticated under the loaded trust.
* `establish_reaches`: Every authentication the loaded trust permits happens.
* `step_linked`: The fields and the remembered sources stay linked.
* `policyKept_iff`: The law holds in the undisturbed states, and only there.
* `trust_policy_iff`: The same along every run.
-/

namespace ArduinoBeken.Tls

open Net (Outcome)
open Stages (Ends ends_bind ends_mono ends_and ends_ite)
open EventRun (run Always)

/-- What a client can be told to trust. -/
inductive TrustSource where
  | insecure
  | caCert (rootCA : CStr)
  | caBundle (bundle : Bundle)
  | preSharedKey (pskIdent psKey : CStr)
deriving DecidableEq, Repr

namespace TrustSource

/-- The source is a certificate. -/
def isCaCert : TrustSource → Bool
  | .caCert _ => true
  | _ => false

/-- The source is a bundle. -/
def isCaBundle : TrustSource → Bool
  | .caBundle _ => true
  | _ => false

/-- The source is a pre-shared key. -/
def isPreSharedKey : TrustSource → Bool
  | .preSharedKey _ _ => true
  | _ => false

/-- The source vouches for a server authenticated in this way. Without
verification every server will do. -/
def Vouches : TrustSource → Auth → Prop
  | .insecure, _ => True
  | .caCert rootCA, auth => auth = .byChain rootCA
  | .caBundle bundle, auth => auth = .byBundle bundle
  | .preSharedKey pskIdent psKey, auth =>
      ∃ key, pskBytes psKey = some key ∧ auth = .byPsk pskIdent key

end TrustSource

/-- What is configured after the call, latest first. -/
def Setting.configure (l : List TrustSource) : Setting → List TrustSource
  | .insecure => [.insecure]
  | .caCert rootCA => (rootCA.map .caCert).toList ++ l.filter (!·.isCaCert)
  | .caBundle bundle _ => (bundle.map .caBundle).toList ++ l.filter (!·.isCaBundle)
  | .preSharedKey pskIdent psKey =>
      (Option.map₂ .preSharedKey pskIdent psKey).toList ++ l.filter (!·.isPreSharedKey)

/-- A device with what has been configured so far. -/
structure Policy extends Device where
  configured : List TrustSource := []
  lastCall : Option Setting := none

namespace Policy

/-- A call changes what is configured only if it sets the trust. -/
def step (p : Policy) (call : Call) : Policy :=
  match call with
  | .set setting =>
      { toDevice := p.toDevice.assign setting
        configured := setting.configure p.configured
        lastCall := some setting }
  | call => { p with toDevice := (p.toDevice.perform call).client }

/-- The session is the one the sketch asked for. -/
def Honoured (p : Policy) (auth : Auth) : Prop :=
  (∃ source, p.configured.head? = some source ∧ source.Vouches auth) ∧
    (auth = .unauthenticated → p.lastCall = some .insecure)

/-- The law of a connect that takes the trust from the fields: whatever the
outside does, a session that comes about is the one the sketch asked for. -/
def PolicyKept (p : Policy) : Call → Prop
  | .connect _ overload => overload.plain = true → ∀ env,
      (p.client.connectBy env p.crts overload).result = 1 →
        ∃ auth, (p.client.connectBy env p.crts overload).client.sslclient.sslCtx =
          .established auth ∧ p.Honoured auth
  | _ => True

/-- The key that is set can be converted. -/
def KeyUsable (p : Policy) : Prop :=
  ∃ psKey, p.client.psKey = some psKey ∧ pskBytes psKey ≠ none

/-- An earlier connection left the bundle's callback in the configuration, and
there is a bundle for it. -/
def BundleLeft (p : Policy) : Prop :=
  p.client.sslclient.sslConf.verify = true ∧ p.crts ≠ none

/-- An earlier connection left its key in the configuration. -/
def PskLeft (p : Policy) : Prop :=
  p.client.sslclient.sslConf.psk ≠ none

/-- The source in front is the one that the fixed order picks, and nothing
left by an earlier connection can stand in for it. -/
def Undisturbed (p : Policy) : Prop :=
  if p.client.useInsecure = true then p.lastCall = some .insecure
  else
    match p.configured with
    | .caCert _ :: _ =>
        if p.client.hasPsk then ¬ p.KeyUsable else ¬ p.BundleLeft ∧ ¬ p.PskLeft
    | .caBundle _ :: _ =>
        if p.client.hasPsk then ¬ p.KeyUsable
        else p.client.caCert = none ∧ (p.crts = none ∨ ¬ p.PskLeft)
    | .preSharedKey _ _ :: _ =>
        p.KeyUsable → p.client.sslclient.sslConf.caChain = none ∨ ¬ p.BundleLeft
    | _ => True

/-- Every such connect is made in an undisturbed state. -/
def ConnectsUndisturbed (p : Policy) : Call → Prop
  | .connect _ overload => overload.plain = true → p.Undisturbed
  | _ => True

end Policy

/-! ### What a connect loads -/

/-- A session that comes about is authenticated in a way that the trust loaded
for it permits. -/
theorem connectBy_permitted (c : WiFiClientSecure) (env : ConnectEnv) (crts : Option Bundle)
    (overload : Overload) (hplain : overload.plain = true)
    (h : (c.connectBy env crts overload).result = 1) :
    ∃ args auth conf caCert, c.Selects args ∧
      (c.connectBy env crts overload).client.sslclient.sslCtx = .established auth ∧
      Permits conf caCert crts auth ∧
      Loaded crts args (trustOf (env.presets.apply c.sslclient.sslConf) c.sslclient.caCert)
        (trustOf conf caCert) := by
  rw [c.connectBy_eq env crts overload] at h ⊢
  cases hargs : c.arguments env overload with
  | none =>
      rw [hargs] at h
      exact absurd h (by simp)
  | some args =>
      rw [hargs] at h
      rcases startClient_succeeded _ env crts args h with ⟨b, hstages, hout⟩
      have htrust := startStages_trust env crts args (c.timed overload).sslclient
      rw [hstages] at htrust
      rcases htrust with ⟨auth, caCert, hauth, hpermits, hloaded, -⟩
      refine ⟨args, auth, b.ctx.sslConf, caCert, ?_, ?_, hpermits, hloaded⟩
      · exact arguments_selects c env overload args hplain hargs
      · simp only [hout]
        exact hauth

/-! ### What a connect can reach -/

/-- A stage that goes on whatever it is given, with what `Q` says. -/
abbrev Passes (x : Stage) (Q : Attempt → Prop) : Prop :=
  Ends x Q fun _ _ => False

/-- A stage that never leaves passes with whatever it goes on with. -/
theorem passes_of_goesOn (x : Stage) (Q : Attempt → Prop) (h : Passes x fun _ => True)
    (hQ : GoesOn x Q) : Passes x Q := by
  refine ends_mono _ _ _ _ _ (ends_and _ _ _ _ _ h hQ) ?_ ?_
  · exact fun _ hb => hb.2
  · exact fun _ _ hb => hb.1.elim

section Smooth

variable (n : Nat) (hs : Handshake) (crts : Option Bundle) (args : SslArgs) (a : Attempt)

/-- Over a smooth attempt the options are set. -/
theorem setOptions_smooth : Passes (setOptions (.smooth n hs) a) fun b => b = a := by
  simp [setOptions, ConnectEnv.smooth]

/-- Over a smooth attempt the configuration is made. -/
theorem configure_smooth : Passes (configure (.smooth n hs) args a) fun _ => True := by
  unfold configure
  refine ends_ite _ _ _ _ _ (fun h => absurd h (Int.lt_irrefl 0)) fun _ => ?_
  refine ends_ite _ _ _ _ _ (fun h => absurd rfl h) fun _ => ?_
  cases args.alpnProtos with
  | none => trivial
  | some protos => exact ends_ite _ _ _ _ _ (fun h => absurd rfl h) fun _ => trivial

/-- Over a smooth attempt what is trusted is loaded from the arguments. -/
theorem trust_smooth (t : Trust) (h : Loaded crts args a.trust t) :
    Passes (trust (.smooth n hs) crts args a) fun b => b.trust = t := by
  unfold trust
  cases h with
  | insecure hins ht => simp [hins, ht, Attempt.trust, trustOf, Attempt.setConf]
  | chain pem hins hpem ht =>
      simp [hins, hpem, ht, Attempt.trust, trustOf, ConnectEnv.smooth]
  | bundle hins hpem huse hcrts ht =>
      rcases Option.ne_none_iff_exists'.1 hcrts with ⟨bundle, hbundle⟩
      simp [hins, hpem, huse, hbundle, ht, Attempt.trust, trustOf, Attempt.setConf,
        crtBundleAttach]
  | psk ident key bytes hins hpem huse hident hkey hbytes ht =>
      simp [hins, hpem, huse, hident, hkey, hbytes, ht, Attempt.trust, trustOf,
        Attempt.setConf, ConnectEnv.smooth, MbedtlsRet.ok]

/-- Over a smooth attempt the own certificate is loaded. -/
theorem ownCertificate_smooth : Passes (ownCertificate (.smooth n hs) args a) fun _ => True := by
  unfold ownCertificate
  split
  · refine ends_ite _ _ _ _ _ (fun h => absurd h (Int.lt_irrefl 0)) fun _ => ?_
    exact ends_ite _ _ _ _ _ (fun h => absurd rfl h) fun _ => trivial
  · trivial

/-- Over a smooth attempt the session is set up. -/
theorem setupSession_smooth : Passes (setupSession (.smooth n hs) args a) fun _ => True := by
  unfold setupSession
  refine ends_ite _ _ _ _ _ (fun h => absurd rfl h) fun _ => ?_
  exact ends_ite _ _ _ _ _ (fun h => absurd rfl h) fun _ => trivial

/-- The handshake completes with a server that the configuration lets in. -/
theorem shakeHands_offering (auth : Auth)
    (h : Permits a.ctx.sslConf a.ctx.caCert crts auth) :
    Passes (shakeHands (.smooth n (.offering auth)) crts a) fun b =>
      b.ctx.sslCtx = .established auth := by
  have hloop : handshakeLoop ((Handshake.offering auth).answers a.ctx.sslConf a.ctx.caCert crts) =
      0 := by
    simp only [Handshake.offering, if_pos h]
    rfl
  unfold shakeHands
  refine ends_ite _ _ _ _ _ (fun hne => absurd hloop hne) fun _ => rfl

/-- With nothing else in the way, a server that authenticates itself in a way
the loaded trust permits is connected to. -/
theorem establish_reaches (auth : Auth) (ctx : SslClientContext) (conf : SslConfig)
    (caCert : Option CStr) (hpermits : Permits conf caCert crts auth)
    (hloaded : Loaded crts args (trustOf (Presets.client.apply ctx.sslConf) ctx.caCert)
      (trustOf conf caCert)) :
    Passes (establish (.smooth n (.offering auth)) crts args ctx) fun b =>
      b.ctx.sslCtx = .established auth := by
  refine ends_bind _ _ (fun a => a.ctx.sslConf = ctx.sslConf ∧ a.ctx.caCert = ctx.caCert)
    _ _ ?_ ?_
  · -- The socket is open and the server accepts, so both stages end without an error.
    unfold openSocket
    refine ends_ite _ _ _ _ _ (fun h => ?_) fun _ => ⟨rfl, rfl⟩
    simp only [ConnectEnv.smooth] at h
    omega
  rintro a ⟨hconf, hcert⟩
  refine ends_bind _ _ (fun a => a.ctx.sslConf = ctx.sslConf ∧ a.ctx.caCert = ctx.caCert)
    _ _ ?_ ?_
  -- the second stage, to the same end
  · unfold connectTcp
    refine ends_ite _ _ _ _ _ (fun h => ?_) fun _ => ⟨hconf, hcert⟩
    simp [ConnectEnv.tcpFails, ConnectEnv.smooth] at h
  rintro b ⟨hconf, hcert⟩
  -- What is trusted is built up by the stages in their order, each of which goes on.
  refine ends_bind _ _ (fun c => c.trust = trustOf conf caCert) _ _ ?_ fun c hc => ?_
  · refine ends_bind _ _ (fun c => c = b) _ _ (setOptions_smooth n _ b) ?_
    rintro c rfl
    refine ends_bind _ _ _ _ _ (passes_of_goesOn _ _ (configure_smooth n _ args c)
      (configure_trust _ args c)) fun d hd => ?_
    have hload : Loaded crts args d.trust (trustOf conf caCert) := by
      rw [hd, hconf, hcert]
      exact hloaded
    refine ends_bind _ _ _ _ _ (trust_smooth n _ crts args d _ hload) fun e he => ?_
    refine ends_bind _ _ _ _ _ (passes_of_goesOn _ _ (ownCertificate_smooth n _ args e)
      (ownCertificate_trust _ args e)) fun f hf => ?_
    refine ends_mono _ _ _ _ _ (passes_of_goesOn _ _ (setupSession_smooth n _ args f)
      (setupSession_trust _ args f)) (fun g hg => ?_) fun _ _ h => h
    rw [hg, hf, he]
  exact shakeHands_offering n crts c auth ((permits_of_trust _ _ _ _ crts auth hc).2 hpermits)

end Smooth

/-- With the lookup answered a connect starts. -/
theorem connectBy_smooth (c : WiFiClientSecure) (n : Nat) (hs : Handshake) (crts : Option Bundle)
    (overload : Overload) (hplain : overload.plain = true) :
    ∃ args, c.Selects args ∧ c.connectBy (.smooth n hs) crts overload =
      (c.timed overload).startClient (.smooth n hs) crts args := by
  rw [c.connectBy_eq (.smooth n hs) crts overload]
  cases hargs : c.arguments (.smooth n hs) overload with
  | none =>
      rcases lookup_of_arguments c _ overload hargs with ⟨host, hnone⟩
      exact absurd hnone (by simp [ConnectEnv.smooth])
  | some args => exact ⟨args, arguments_selects c _ overload args hplain hargs, rfl⟩

/-! ### The fields and what has been configured -/

namespace Policy

/-- The fields hold what has been configured, each setter's own. -/
structure Linked (p : Policy) : Prop where
  caCert : ∀ rootCA, p.client.caCert = some rootCA ↔ .caCert rootCA ∈ p.configured
  bundleSet : ∀ bundle, .caBundle bundle ∈ p.configured →
    p.client.useCaBundle = true ∧ (p.crts = none ∨ p.crts = some bundle)
  bundleUsed : p.client.useCaBundle = true →
    .insecure ∈ p.configured ∨ ∃ bundle, .caBundle bundle ∈ p.configured
  psk : ∀ pskIdent psKey, (p.client.pskIdent = some pskIdent ∧ p.client.psKey = some psKey) ↔
    .preSharedKey pskIdent psKey ∈ p.configured
  insecure : p.client.useInsecure = true → .insecure ∈ p.configured
  last : p.lastCall = some .insecure → p.configured = [.insecure]
  freed : p.client.sslclient.caCert = none

/-- A new client is linked to its configuration. -/
theorem linked_new (sock : Int) : Linked { client := .ofSocket sock } := by
  constructor <;> simp [WiFiClientSecure.ofSocket]

/-- What is in the list after a setter replaced the sources of its kind. -/
theorem mem_replace (source : Option TrustSource) (isKind : TrustSource → Bool)
    (l : List TrustSource) (s : TrustSource) :
    s ∈ source.toList ++ l.filter (!isKind ·) ↔ source = some s ∨ (s ∈ l ∧ isKind s = false) := by
  simp only [List.mem_append, Option.mem_toList, List.mem_filter,
    Bool.not_eq_true']

/-- `setCACert` keeps the link to the configuration. -/
theorem linked_setCACert (p : Policy) (h : Linked p) (rootCA : Option CStr) :
    Linked (p.step (.set (.caCert rootCA))) := by
  constructor
  -- The certificate that is set takes the place of the one before, or removes it.
  case caCert =>
    intro pem
    simp only [step, Device.assign, WiFiClientSecure.setCACert, Setting.configure, mem_replace,
      TrustSource.isCaCert, Option.map_eq_some_iff, TrustSource.caCert.injEq, exists_eq_right,
      Bool.true_eq_false, and_false, or_false]
  case bundleSet =>
    intro bundle hmem
    rcases (mem_replace _ _ _ _).1 hmem with hnew | hold
    · simp only [Option.map_eq_some_iff, reduceCtorEq, and_false, exists_false] at hnew
    · exact h.bundleSet bundle hold.1
  -- The bundle in use was configured before, and it stays so.
  case bundleUsed =>
    intro huse
    refine (h.bundleUsed huse).imp ?_ ?_
    · intro hins
      exact (mem_replace _ _ _ _).2 (Or.inr ⟨hins, rfl⟩)
    · rintro ⟨bundle, hmem⟩
      exact ⟨bundle, (mem_replace _ _ _ _).2 (Or.inr ⟨hmem, rfl⟩)⟩
  case psk =>
    intro pskIdent psKey
    refine (h.psk pskIdent psKey).trans ?_
    simp only [step, Setting.configure, mem_replace, TrustSource.isCaCert,
      Option.map_eq_some_iff, reduceCtorEq, and_false, exists_false, false_or, and_true]
  case insecure =>
    exact fun huse => absurd huse (by simp [step, Device.assign, WiFiClientSecure.setCACert])
  case last => exact fun hlast => absurd hlast (by simp [step])
  case freed => exact h.freed

/-- `setCACertBundle` keeps the link to the configuration. -/
theorem linked_setCACertBundle (p : Policy) (h : Linked p) (bundle : Option Bundle)
    (allocated : Bool) : Linked (p.step (.set (.caBundle bundle allocated))) := by
  constructor
  case caCert =>
    intro rootCA
    refine Iff.trans (by cases bundle <;> exact Iff.rfl) ((h.caCert rootCA).trans ?_)
    simp only [step, Setting.configure, mem_replace, TrustSource.isCaBundle,
      Option.map_eq_some_iff, reduceCtorEq, and_false, exists_false, false_or, and_true]
  case bundleSet =>
    intro b hmem
    rcases (mem_replace _ _ _ _).1 hmem with hnew | hold
    · simp only [Option.map_eq_some_iff, TrustSource.caBundle.injEq, exists_eq_right] at hnew
      -- The bundle takes effect whether there is memory for its copy or not.
      subst hnew
      cases allocated
      · exact ⟨rfl, Or.inl rfl⟩
      · exact ⟨rfl, Or.inr rfl⟩
    · exact absurd hold.2 (by simp [TrustSource.isCaBundle])
  case bundleUsed =>
    intro huse
    -- no bundle: the flag is cleared as well
    cases bundle with
    | none => exact absurd huse (by simp [step, Device.assign, WiFiClientSecure.setCACertBundle])
    | some b => exact Or.inr ⟨b, (mem_replace _ _ _ _).2 (Or.inl rfl)⟩
  case psk =>
    intro pskIdent psKey
    refine Iff.trans (by cases bundle <;> exact Iff.rfl) ((h.psk pskIdent psKey).trans ?_)
    simp only [step, Setting.configure, mem_replace, TrustSource.isCaBundle,
      Option.map_eq_some_iff, reduceCtorEq, and_false, exists_false, false_or, and_true]
  case insecure =>
    intro huse
    refine (mem_replace _ _ _ _).2 (Or.inr ⟨h.insecure ?_, rfl⟩)
    cases bundle <;> exact huse
  case last => exact fun hlast => absurd hlast (by simp [step])
  case freed => cases bundle <;> exact h.freed

/-- `setPreSharedKey` keeps the link to the configuration. -/
theorem linked_setPreSharedKey (p : Policy) (h : Linked p) (pskIdent psKey : Option CStr) :
    Linked (p.step (.set (.preSharedKey pskIdent psKey))) := by
  -- A source of another kind is configured before and after.
  have hkept : ∀ s : TrustSource, s.isPreSharedKey = false →
      (s ∈ p.configured ↔ s ∈ (p.step (.set (.preSharedKey pskIdent psKey))).configured) := by
    intro s hs
    simp only [step, Setting.configure, mem_replace, hs, and_true]
    refine ⟨Or.inr, fun hmem => hmem.resolve_left fun hnew => ?_⟩
    rcases Option.map₂_eq_some_iff.1 hnew with ⟨_, _, -, -, hpsk⟩
    simp [← hpsk, TrustSource.isPreSharedKey] at hs
  constructor
  case caCert => exact fun rootCA => (h.caCert rootCA).trans (hkept _ rfl)
  case bundleSet => exact fun bundle hmem => h.bundleSet bundle ((hkept _ rfl).2 hmem)
  case bundleUsed =>
    intro huse
    refine (h.bundleUsed huse).imp (hkept _ rfl).1 ?_
    rintro ⟨bundle, hmem⟩
    exact ⟨bundle, (hkept _ rfl).1 hmem⟩
  case psk =>
    intro i k
    simp only [step, Device.assign, WiFiClientSecure.setPreSharedKey, Setting.configure,
      mem_replace,
      TrustSource.isPreSharedKey, Bool.true_eq_false, and_false, or_false,
      Option.map₂_eq_some_iff, TrustSource.preSharedKey.injEq, Option.mem_def]
    -- Both parts of the key are needed for it to be configured.
    refine ⟨fun hik => ⟨i, k, hik.1, hik.2, rfl, rfl⟩, ?_⟩
    rintro ⟨_, _, hi, hk, rfl, rfl⟩
    exact ⟨hi, hk⟩
  case insecure => exact fun huse => (hkept _ rfl).1 (h.insecure huse)
  case last => exact fun hlast => absurd hlast (by simp [step])
  case freed => exact h.freed

/-- `setInsecure` keeps the link to the configuration. -/
theorem linked_setInsecure (p : Policy) (h : Linked p) : Linked (p.step (.set .insecure)) := by
  constructor
  case bundleUsed => exact fun _ => Or.inl (List.mem_singleton.2 rfl)
  case insecure => exact fun _ => List.mem_singleton.2 rfl
  case last => exact fun _ => rfl
  case freed => exact h.freed
  all_goals simp [step, Device.assign, Setting.configure, WiFiClientSecure.setInsecure]

/-- A call that keeps the settings and leaves no certificate keeps the link. -/
theorem linked_client (p : Policy) (h : Linked p) (c : WiFiClientSecure)
    (hc : p.client.KeepsSettings c) (hfreed : c.sslclient.caCert = none) :
    Linked { p with client := c } := by
  unfold WiFiClientSecure.KeepsSettings at hc
  constructor
  case caCert => exact fun rootCA => by rw [hc]; exact h.caCert rootCA
  case bundleSet => exact fun bundle hmem => by rw [hc]; exact h.bundleSet bundle hmem
  case bundleUsed => rw [hc]; exact h.bundleUsed
  case psk => exact fun i k => by rw [hc]; exact h.psk i k
  case insecure => rw [hc]; exact h.insecure
  case last => exact h.last
  case freed => exact hfreed

/-- An attempt keeps the link to the configuration. -/
theorem linked_startClient (p : Policy) (h : Linked p) (env : ConnectEnv) (args : SslArgs) :
    Linked { p with client := (p.client.startClient env p.crts args).client } :=
  linked_client p h _ (startClient_settings _ _ _ _) (startClient_caCert _ _ _ _ h.freed)

/-- A timeout is no source of trust. -/
theorem linked_timed (p : Policy) (h : Linked p) (overload : Overload) :
    Linked { p with client := p.client.timed overload } :=
  ⟨h.caCert, h.bundleSet, h.bundleUsed, h.psk, h.insecure, h.last, h.freed⟩

/-- Reading and writing keep the link to the configuration. -/
theorem linked_io (p : Policy) (h : Linked p) (call : Call) (hio : call.isIo = true) :
    Linked { p with toDevice := (p.toDevice.perform call).client } := by
  rcases p.toDevice.perform_io call hio with ⟨hsteps, hcrts⟩
  have hcaCert : (p.toDevice.perform call).client.client.sslclient.caCert = none :=
    hsteps.keeps (fun c => c.sslclient.caCert = none) (fun _ _ hc => hc)
      (fun c _ => by rw [WiFiClientSecure.stop_client]) _ _ _ h.freed
  have hl := linked_client p h _ (io_settings _ _ _ hsteps) hcaCert
  rwa [← hcrts] at hl

/-- The fields and the remembered sources stay linked. -/
theorem step_linked (p : Policy) (call : Call) (h : Linked p) : Linked (p.step call) := by
  cases call with
  | set setting =>
      cases setting with
      | insecure => exact linked_setInsecure p h
      -- One lemma for each setting; the calls that set nothing keep the link.
      | caCert rootCA => exact linked_setCACert p h rootCA
      | caBundle bundle allocated => exact linked_setCACertBundle p h bundle allocated
      | preSharedKey pskIdent psKey => exact linked_setPreSharedKey p h pskIdent psKey
  | setCertificate clientCa =>
      exact ⟨h.caCert, h.bundleSet, h.bundleUsed, h.psk, h.insecure, h.last, h.freed⟩
  | setPrivateKey privateKey =>
      exact ⟨h.caCert, h.bundleSet, h.bundleUsed, h.psk, h.insecure, h.last, h.freed⟩
  | connect env overload =>
      simp only [step, Device.perform, Device.finish, WiFiClientSecure.connectBy_eq]
      cases p.client.arguments env overload with
      | none => exact linked_timed p h overload
      | some args => exact linked_startClient _ (linked_timed p h overload) env args
  | stop =>
      refine linked_client p h _ (stop_settings _) ?_
      rw [WiFiClientSecure.stop_client]
  | write answers => exact linked_io p h (.write answers) rfl
  | read answer => exact linked_io p h (.read answer) rfl
  | readBuf answer size => exact linked_io p h (.readBuf answer size) rfl
  | peek answers => exact linked_io p h (.peek answers) rfl
  | available pending => exact linked_io p h (.available pending) rfl
  | connected => exact linked_io p h .connected rfl

/-! ### The law in an undisturbed state -/

/-- Arguments that load some trust are not without. -/
theorem loaded_not_noTrust (crts : Option Bundle) (args : SslArgs) (base t : Trust)
    (h : Loaded crts args base t) : ¬ args.noTrust := by
  rintro ⟨hroot, hident, -, hins, huse⟩
  cases h with
  | insecure hins' ht => simp [hins] at hins'
  | chain pem _ hpem ht => simp [hroot] at hpem
  | bundle _ hpem huse' hcrts ht => simp [huse] at huse'
  | psk ident key bytes _ hpem huse' hident' hkey hbytes ht => simp [hident] at hident'

/-- Unless verification is off, the loaded configuration requires it. -/
theorem loaded_required (crts : Option Bundle) (args : SslArgs) (presets : Presets)
    (conf conf' : SslConfig) (old caCert : Option CStr) (hins : args.insecure = false)
    (h : Loaded crts args (trustOf (presets.apply conf) old) (trustOf conf' caCert)) :
    conf'.authmode = .verifyRequired := by
  have hbase := presets.authmode conf
  cases h with
  | insecure hins' ht => simp [hins] at hins'
  | chain pem _ hpem ht => exact congrArg Trust.authmode ht
  | bundle _ hpem huse hcrts ht => exact (congrArg Trust.authmode ht).trans hbase
  | psk ident key bytes _ hpem huse hident hkey hbytes ht =>
      exact (congrArg Trust.authmode ht).trans hbase

/-- A session without authentication needs a configuration without
verification. -/
theorem authenticated_of_required (conf : SslConfig) (caCert : Option CStr)
    (crts : Option Bundle) (auth : Auth) (hpermits : Permits conf caCert crts auth)
    (hmode : conf.authmode = .verifyRequired) : auth ≠ .unauthenticated := by
  rintro rfl
  exact absurd (hpermits.symm.trans hmode) (by decide)

variable (p : Policy) (hl : Linked p) (args : SslArgs) (hsel : p.client.Selects args)

include hsel in
/-- Arguments with an identity come from a client with a key. -/
theorem selects_hasPsk (ident : CStr) (h : args.pskIdent = some ident) : p.client.hasPsk := by
  by_contra hnot
  rw [hsel.pskIdent, if_neg hnot] at h
  exact absurd h (by simp)

include hsel in
/-- Arguments with a certificate come from a client without a key. -/
theorem selects_not_hasPsk (h : args.rootCABuff ≠ none ∨ args.useRootCABundle = true) :
    ¬ p.client.hasPsk := by
  intro hpsk
  rw [hsel.rootCABuff, hsel.useRootCABundle, if_pos hpsk, if_pos hpsk] at h
  simp at h

include hl in
/-- A configured key is one the client has. -/
theorem hasPsk_of_configured (pskIdent psKey : CStr)
    (h : .preSharedKey pskIdent psKey ∈ p.configured) : p.client.hasPsk := by
  rcases (hl.psk pskIdent psKey).2 h with ⟨hident, hkey⟩
  simp [WiFiClientSecure.hasPsk, hident, hkey]

/-- A key the configuration still has was left by an earlier attempt. -/
theorem pskLeft_of_presets (presets : Presets)
    (h : (presets.apply p.client.sslclient.sslConf).psk ≠ none) : p.PskLeft :=
  fun hnone => h (presets.psk _ hnone)

/-- A bundle the configuration still verifies with was left by an earlier attempt. -/
theorem bundleLeft_of_presets (presets : Presets)
    (hverify : (presets.apply p.client.sslclient.sslConf).verify = true) (hcrts : p.crts ≠ none) :
    p.BundleLeft := by
  refine ⟨?_, hcrts⟩
  by_contra hfalse
  exact absurd (presets.verify _ (by simpa using hfalse)) (by simp [hverify])

section Vouched

variable (presets : Presets) (conf : SslConfig) (caCert : Option CStr) (auth : Auth)
  (source : TrustSource) (rest : List TrustSource) (hconf : p.configured = source :: rest)
  (hins : p.client.useInsecure = false) (hu : p.Undisturbed)
  (hpermits : Permits conf caCert p.crts auth) (hauth : auth ≠ .unauthenticated)

include hl hconf hins hu hpermits hauth in
/-- A loaded certificate is the source in front, and vouches alone. -/
theorem vouched_of_chain (pem : CStr) (hnot : ¬ p.client.hasPsk)
    (hpem : p.client.caCert = some pem)
    (hverify : conf.verify = (presets.apply p.client.sslclient.sslConf).verify)
    (hpsk : conf.psk = (presets.apply p.client.sslclient.sslConf).psk)
    (hcert : caCert = some pem) : source.Vouches auth := by
  -- The source in front decides; a chain of the certificate is what was permitted.
  have hmem : source ∈ p.configured := by simp [hconf]
  simp only [Undisturbed, hins, Bool.false_eq_true, if_false, hconf] at hu
  cases source with
  | insecure => trivial
  | preSharedKey i k => exact absurd (hasPsk_of_configured p hl i k hmem) hnot
  | caBundle b =>
      simp only [if_neg hnot] at hu
      exact absurd (hpem.symm.trans hu.1) (by simp)
  | caCert rootCA =>
      simp only [if_neg hnot] at hu
      have hroot : rootCA = pem :=
        Option.some.inj (((hl.caCert rootCA).2 hmem).symm.trans hpem)
      cases auth with
      | unauthenticated => exact absurd rfl hauth
      | byChain q =>
          have hq : some q = some pem := hpermits.2.symm.trans hcert
          rw [hroot, Option.some.inj hq]
          rfl
      -- A bundle could only be left over from an earlier connection.
      | byBundle b =>
          have hcrts : p.crts ≠ none := Option.ne_none_iff_exists'.2 ⟨b, hpermits.2.2⟩
          exact absurd (bundleLeft_of_presets p presets (hverify ▸ hpermits.2.1) hcrts) hu.1
      | byPsk i k =>
          have hleft : conf.psk ≠ none := Option.ne_none_iff_exists'.2 ⟨_, hpermits⟩
          exact absurd (pskLeft_of_presets p presets (hpsk ▸ hleft)) hu.2

include hl hconf hins hu hpermits hauth in
/-- A loaded bundle is the source in front, and vouches alone. -/
theorem vouched_of_bundle (hnot : ¬ p.client.hasPsk) (hpem : p.client.caCert = none)
    (hcrts : p.crts ≠ none) (hchain : conf.caChain = some .dummy)
    (hpsk : conf.psk = (presets.apply p.client.sslclient.sslConf).psk) :
    source.Vouches auth := by
  have hmem : source ∈ p.configured := by simp [hconf]
  simp only [Undisturbed, hins, Bool.false_eq_true, if_false, hconf] at hu
  cases source with
  | insecure => trivial
  | preSharedKey i k => exact absurd (hasPsk_of_configured p hl i k hmem) hnot
  | caCert rootCA => exact absurd (((hl.caCert rootCA).2 hmem).symm.trans hpem) (by simp)
  | caBundle b =>
      simp only [if_neg hnot] at hu
      have hb : p.crts = some b := (hl.bundleSet b hmem).2.resolve_left hcrts
      cases auth with
      | unauthenticated => exact absurd rfl hauth
      | byChain q => exact absurd (hchain.symm.trans hpermits.1) (by simp)
      | byBundle b' =>
          have hb' : some b' = some b := hpermits.2.2.symm.trans hb
          rw [Option.some.inj hb']
          rfl
      | byPsk i k =>
          have hleft : conf.psk ≠ none := Option.ne_none_iff_exists'.2 ⟨_, hpermits⟩
          exact absurd (pskLeft_of_presets p presets (hpsk ▸ hleft)) (hu.2.resolve_left hcrts)

include hl hconf hins hu hpermits hauth in
/-- A loaded key is the source in front, and vouches alone. -/
theorem vouched_of_psk (ident key : CStr) (bytes : List UInt8)
    (hident : p.client.pskIdent = some ident) (hkey : p.client.psKey = some key)
    (hbytes : pskBytes key = some bytes)
    (hchain : conf.caChain = (presets.apply p.client.sslclient.sslConf).caChain)
    (hverify : conf.verify = (presets.apply p.client.sslclient.sslConf).verify)
    (hpsk : conf.psk = some (ident, bytes)) (hcert : caCert = none) : source.Vouches auth := by
  have hmem : source ∈ p.configured := by simp [hconf]
  have hhas : p.client.hasPsk := by simp [WiFiClientSecure.hasPsk, hident, hkey]
  -- A key is in use, so a certificate or a bundle in front is disturbed.
  have husable : p.KeyUsable := ⟨key, hkey, by simp [hbytes]⟩
  simp only [Undisturbed, hins, Bool.false_eq_true, if_false, hconf] at hu
  cases source with
  | insecure => trivial
  | caCert rootCA =>
      simp only [if_pos hhas] at hu
      exact absurd husable hu
  | caBundle b =>
      simp only [if_pos hhas] at hu
      exact absurd husable hu
  | preSharedKey i k =>
      rcases (hl.psk i k).2 hmem with ⟨hi, hk⟩
      have hi : i = ident := Option.some.inj (hi.symm.trans hident)
      have hk : k = key := Option.some.inj (hk.symm.trans hkey)
      cases auth with
      | unauthenticated => exact absurd rfl hauth
      | byChain q => exact absurd (hcert.symm.trans hpermits.2) (by simp)
      | byBundle b =>
          have hcrts : p.crts ≠ none := Option.ne_none_iff_exists'.2 ⟨b, hpermits.2.2⟩
          -- A bundle would need a chain in the presets, or be left over.
          rcases hu husable with hnone | hleft
          · exact absurd (hchain.trans (presets.caChain _ hnone)) hpermits.1
          · exact absurd (bundleLeft_of_presets p presets (hverify ▸ hpermits.2.1) hcrts) hleft
      | byPsk i' k' =>
          have hpair : (i', k') = (ident, bytes) := Option.some.inj (hpermits.symm.trans hpsk)
          rw [Prod.mk.injEq] at hpair
          rcases hpair with ⟨rfl, rfl⟩
          exact ⟨k', hk ▸ hbytes, hi ▸ rfl⟩

end Vouched

include hl hsel in
/-- The trust loaded in an undisturbed state lets only the source in front
vouch for the server. -/
theorem vouched_of_undisturbed (presets : Presets) (conf : SslConfig) (caCert : Option CStr)
    (auth : Auth) (hins : p.client.useInsecure = false) (hu : p.Undisturbed)
    (hpermits : Permits conf caCert p.crts auth) (hauth : auth ≠ .unauthenticated)
    (hloaded : Loaded p.crts args
      (trustOf (presets.apply p.client.sslclient.sslConf) p.client.sslclient.caCert)
      (trustOf conf caCert)) :
    ∃ source, p.configured.head? = some source ∧ source.Vouches auth := by
  cases hloaded with
  -- One case for each way of loading what is trusted.
  | insecure hins' ht => exact absurd (hins'.symm.trans hsel.insecure) (by simp [hins])
  | chain pem _ hpem ht =>
      simp only [trustOf, Trust.mk.injEq] at ht
      have hnot : ¬ p.client.hasPsk := selects_not_hasPsk p args hsel (Or.inl (by simp [hpem]))
      rw [hsel.rootCABuff, if_neg hnot] at hpem
      cases hconf : p.configured with
      | nil => exact absurd ((hl.caCert pem).1 hpem) (by simp [hconf])
      | cons source rest =>
          exact ⟨source, rfl, vouched_of_chain p hl presets conf caCert auth source rest hconf
            hins hu hpermits hauth pem hnot hpem ht.2.2.1 ht.2.2.2.1 ht.2.2.2.2⟩
  | bundle _ hpem huse hcrts ht =>
      simp only [trustOf, Trust.mk.injEq] at ht
      have hnot : ¬ p.client.hasPsk := selects_not_hasPsk p args hsel (Or.inr huse)
      rw [hsel.rootCABuff, if_neg hnot] at hpem
      rw [hsel.useRootCABundle, if_neg hnot] at huse
      cases hconf : p.configured with
      | nil => exact absurd (hl.bundleUsed huse) (by simp [hconf])
      | cons source rest =>
          exact ⟨source, rfl, vouched_of_bundle p hl presets conf caCert auth source rest hconf
            hins hu hpermits hauth hnot hpem hcrts ht.2.1 ht.2.2.2.1⟩
  | psk ident key bytes _ hpem huse hident hkey hbytes ht =>
      simp only [trustOf, Trust.mk.injEq] at ht
      -- A key is given only if both its parts are set.
      have hhas : p.client.hasPsk := selects_hasPsk p args hsel ident hident
      rw [hsel.pskIdent, if_pos hhas] at hident
      rw [hsel.psKey, if_pos hhas] at hkey
      cases hconf : p.configured with
      | nil => exact absurd ((hl.psk ident key).1 ⟨hident, hkey⟩) (by simp [hconf])
      | cons source rest =>
          exact ⟨source, rfl, vouched_of_psk p hl presets conf caCert auth source rest hconf
            hins hu hpermits hauth ident key bytes hident hkey hbytes ht.2.1 ht.2.2.1
            ht.2.2.2.1 (ht.2.2.2.2.trans hl.freed)⟩

include hl in
/-- In an undisturbed state the law holds of any connect. -/
theorem policyKept_of_undisturbed (env : ConnectEnv) (overload : Overload)
    (hu : overload.plain = true → p.Undisturbed) : p.PolicyKept (.connect env overload) := by
  intro hplain env h
  have hu := hu hplain
  rcases connectBy_permitted p.client env p.crts overload hplain h with
    ⟨args, auth, conf, caCert, hsel, hauth, hpermits, hloaded⟩
  refine ⟨auth, hauth, ?_⟩
  by_cases hins : p.client.useInsecure = true
  · simp only [Undisturbed, if_pos hins] at hu
    exact ⟨⟨.insecure, by rw [hl.last hu]; rfl, trivial⟩, fun _ => hu⟩
  · have hins : p.client.useInsecure = false := by simpa using hins
    have hmode := loaded_required p.crts args env.presets _ conf _ caCert
      (hsel.insecure.trans hins) hloaded
    have hne := authenticated_of_required conf caCert p.crts auth hpermits hmode
    exact ⟨vouched_of_undisturbed p hl args hsel env.presets conf caCert auth hins hu hpermits
      hne hloaded, fun h => absurd h hne⟩

/-- Every authentication that the loaded trust permits has to be the one the
sketch asked for, since a server may come with it. -/
theorem honoured_of_policyKept (env : ConnectEnv) (overload : Overload)
    (hplain : overload.plain = true) (h : p.PolicyKept (.connect env overload)) (conf : SslConfig)
    (caCert : Option CStr)
    (auth : Auth) (hpermits : Permits conf caCert p.crts auth)
    (hloaded : ∀ args, p.client.Selects args → Loaded p.crts args
      (trustOf (Presets.client.apply p.client.sslclient.sslConf) p.client.sslclient.caCert)
      (trustOf conf caCert)) :
    p.Honoured auth := by
  rcases connectBy_smooth p.client 0 (.offering auth) p.crts overload hplain with
    ⟨args, hsel, hargs⟩
  have hload := hloaded args hsel
  have hreach := establish_reaches 0 p.crts args auth (p.client.timed overload).sslclient conf
    caCert hpermits hload
  cases startClient_started (p.client.timed overload) (.smooth 0 (.offering auth)) p.crts args with
  -- The connection is not refused and does not fail, as every stage goes on.
  | refused htrust hout => exact absurd htrust (loaded_not_noTrust p.crts args _ _ hload)
  | failed ret b htrust hret hstages hexit hout =>
      rw [hstages] at hreach
      exact hreach.elim
  | unverified b htrust hopen hstages hflags hout => exact absurd rfl hflags
  | succeeded b htrust hopen hflags hstages hout =>
      -- The session that is established is the one that was offered.
      have hsession : b.ctx.sslCtx = .established auth := by
        rcases (Stages.bind_eq_ok _ _ _).1 hstages with ⟨a, hest, hverify⟩
        rw [hest] at hreach
        rw [verifyPeer, if_neg (not_not.2 hflags)] at hverify
        cases hverify
        exact hreach
      rcases h hplain (.smooth 0 (.offering auth)) (by rw [hargs, hout]) with ⟨auth', hauth', hhon⟩
      rw [hargs, hout] at hauth'
      have hsame : SslContext.established auth' = .established auth := hauth'.symm.trans hsession
      rw [SslContext.established.inj hsame] at hhon
      exact hhon

section Forced

variable (hlaw : ∀ conf caCert auth, Permits conf caCert p.crts auth →
    (∀ args, p.client.Selects args → Loaded p.crts args
      (trustOf (Presets.client.apply p.client.sslclient.sslConf) p.client.sslclient.caCert)
      (trustOf conf caCert)) → p.Honoured auth)
  (hins : p.client.useInsecure = false)

include hlaw hins in
/-- A key that is set is loaded, over what an earlier connection left. -/
theorem honoured_psk (ident psKey : CStr) (key : List UInt8) (auth : Auth)
    (hident : p.client.pskIdent = some ident) (hpsKey : p.client.psKey = some psKey)
    (hkey : pskBytes psKey = some key)
    (hpermits : Permits { Presets.client.apply p.client.sslclient.sslConf with
      psk := some (ident, key) } p.client.sslclient.caCert p.crts auth) : p.Honoured auth := by
  have hpsk : p.client.hasPsk := by simp [WiFiClientSecure.hasPsk, hident, hpsKey]
  refine hlaw _ _ auth hpermits fun args hsel => ?_
  refine .psk ident psKey key (hsel.insecure.trans hins) ?_ ?_ ?_ ?_ hkey rfl
  · rw [hsel.rootCABuff, if_pos hpsk]
  · rw [hsel.useRootCABundle, if_pos hpsk]
  · rw [hsel.pskIdent, if_pos hpsk, hident]
  · rw [hsel.psKey, if_pos hpsk, hpsKey]

include hlaw hins in
/-- Without a key, a certificate that is set is loaded. -/
theorem honoured_chain (pem : CStr) (auth : Auth) (hnot : ¬ p.client.hasPsk)
    (hpem : p.client.caCert = some pem)
    (hpermits : Permits { Presets.client.apply p.client.sslclient.sslConf with
      authmode := .verifyRequired, caChain := some .own } (some pem) p.crts auth) :
    p.Honoured auth := by
  refine hlaw _ _ auth hpermits fun args hsel => ?_
  refine .chain pem (hsel.insecure.trans hins) ?_ rfl
  rw [hsel.rootCABuff, if_neg hnot, hpem]

include hlaw hins in
/-- Without either, a bundle that is set is loaded. -/
theorem honoured_bundle (auth : Auth) (hnot : ¬ p.client.hasPsk) (hpem : p.client.caCert = none)
    (huse : p.client.useCaBundle = true) (hcrts : p.crts ≠ none)
    (hpermits : Permits { Presets.client.apply p.client.sslclient.sslConf with
      caChain := some .dummy, verify := true } p.client.sslclient.caCert p.crts auth) :
    p.Honoured auth := by
  refine hlaw _ _ auth hpermits fun args hsel => ?_
  refine .bundle (hsel.insecure.trans hins) ?_ ?_ hcrts rfl
  · rw [hsel.rootCABuff, if_neg hnot, hpem]
  · rw [hsel.useRootCABundle, if_neg hnot, huse]

include hlaw hins in
/-- A usable key makes the key the way in. -/
theorem honoured_of_keyUsable (hpsk : p.client.hasPsk) (husable : p.KeyUsable) :
    ∃ ident key, p.Honoured (.byPsk ident key) := by
  rcases husable with ⟨psKey, hpsKey, hb⟩
  rcases Option.ne_none_iff_exists'.1 hpsk.1 with ⟨ident, hident⟩
  rcases Option.ne_none_iff_exists'.1 hb with ⟨key, hkey⟩
  exact ⟨ident, key, honoured_psk p hlaw hins ident psKey key _ hident hpsKey hkey rfl⟩

/-- Who is let in is vouched for by the source in front. -/
theorem vouches_of_honoured (source : TrustSource) (rest : List TrustSource)
    (hconf : p.configured = source :: rest) (auth : Auth) (h : p.Honoured auth) :
    source.Vouches auth := by
  rcases h with ⟨⟨s, hs, hv⟩, -⟩
  rw [hconf, List.head?_cons, Option.some.injEq] at hs
  exact hs ▸ hv

include hlaw hins in
/-- A key is not usable behind a source that vouches for no key. -/
theorem not_keyUsable_of_front (source : TrustSource) (rest : List TrustSource)
    (hconf : p.configured = source :: rest) (hpsk : p.client.hasPsk)
    (hno : ∀ ident key, ¬ source.Vouches (.byPsk ident key)) : ¬ p.KeyUsable := by
  intro husable
  rcases honoured_of_keyUsable p hlaw hins hpsk husable with ⟨ident, key, hhonoured⟩
  exact hno ident key (vouches_of_honoured p source rest hconf _ hhonoured)

include hl hlaw hins in
/-- A CA certificate set last is undisturbed. -/
theorem undisturbed_caCert (rootCA : CStr) (rest : List TrustSource)
    (hconf : p.configured = .caCert rootCA :: rest) : p.Undisturbed := by
  have hroot : p.client.caCert = some rootCA := (hl.caCert rootCA).2 (by simp [hconf])
  have hfront := vouches_of_honoured p _ rest hconf
  simp only [Undisturbed, hins, Bool.false_eq_true, if_false, hconf]
  by_cases hpsk : p.client.hasPsk
  · rw [if_pos hpsk]
    exact not_keyUsable_of_front p hlaw hins _ rest hconf hpsk (by simp [TrustSource.Vouches])
  · rw [if_neg hpsk]
    refine ⟨?_, ?_⟩
    · rintro ⟨hverify, hcrts⟩
      rcases Option.ne_none_iff_exists'.1 hcrts with ⟨b, hb⟩
      have hv := honoured_chain p hlaw hins rootCA (.byBundle b) hpsk hroot ⟨by simp, hverify, hb⟩
      exact absurd (hfront _ hv) (by simp [TrustSource.Vouches])
    · intro hleft
      rcases Option.ne_none_iff_exists'.1 hleft with ⟨⟨i, k⟩, hik⟩
      have hv := honoured_chain p hlaw hins rootCA (.byPsk i k) hpsk hroot hik
      exact absurd (hfront _ hv) (by simp [TrustSource.Vouches])

include hl hlaw hins in
/-- A bundle set last is undisturbed. -/
theorem undisturbed_caBundle (bundle : Bundle) (rest : List TrustSource)
    (hconf : p.configured = .caBundle bundle :: rest) : p.Undisturbed := by
  have huse : p.client.useCaBundle = true := (hl.bundleSet bundle (by simp [hconf])).1
  have hfront := vouches_of_honoured p _ rest hconf
  simp only [Undisturbed, hins, Bool.false_eq_true, if_false, hconf]
  by_cases hpsk : p.client.hasPsk
  · rw [if_pos hpsk]
    exact not_keyUsable_of_front p hlaw hins _ rest hconf hpsk (by simp [TrustSource.Vouches])
  · rw [if_neg hpsk]
    have hnone : p.client.caCert = none := by
      by_contra hsome
      rcases Option.ne_none_iff_exists'.1 hsome with ⟨pem, hpem⟩
      have hv := honoured_chain p hlaw hins pem (.byChain pem) hpsk hpem ⟨rfl, rfl⟩
      exact absurd (hfront _ hv) (by simp [TrustSource.Vouches])
    refine ⟨hnone, ?_⟩
    by_contra hboth
    rw [not_or, not_not] at hboth
    rcases Option.ne_none_iff_exists'.1 hboth.2 with ⟨⟨i, k⟩, hik⟩
    have hv := honoured_bundle p hlaw hins (.byPsk i k) hpsk hnone huse hboth.1 hik
    exact absurd (hfront _ hv) (by simp [TrustSource.Vouches])

include hl hlaw hins in
/-- A key set last is undisturbed. -/
theorem undisturbed_preSharedKey (pskIdent psKey : CStr) (rest : List TrustSource)
    (hconf : p.configured = .preSharedKey pskIdent psKey :: rest) : p.Undisturbed := by
  rcases (hl.psk pskIdent psKey).2 (by simp [hconf]) with ⟨hident, hpsKey⟩
  simp only [Undisturbed, hins, Bool.false_eq_true, if_false, hconf]
  rintro ⟨psKey', hpsKey', hb⟩
  rcases Option.ne_none_iff_exists'.1 hb with ⟨key, hkey⟩
  by_contra hboth
  rw [not_or, not_not] at hboth
  rcases hboth with ⟨hne, hverify, hcrts⟩
  rcases Option.ne_none_iff_exists'.1 hcrts with ⟨b, hbundle⟩
  have hv := honoured_psk p hlaw hins pskIdent psKey' key (.byBundle b) hident hpsKey' hkey
    ⟨hne, hverify, hbundle⟩
  rcases vouches_of_honoured p _ rest hconf _ hv with ⟨_, -, hauth⟩
  exact absurd hauth (by simp)

end Forced

include hl in
/-- The law of any connect forces the state to be undisturbed. -/
theorem undisturbed_of_policyKept (env : ConnectEnv) (overload : Overload)
    (hplain : overload.plain = true) (h : p.PolicyKept (.connect env overload)) :
    p.Undisturbed := by
  have hlaw := honoured_of_policyKept p env overload hplain h
  by_cases hins : p.client.useInsecure = true
  · rw [Undisturbed, if_pos hins]
    refine (hlaw { Presets.client.apply p.client.sslclient.sslConf with
      authmode := .verifyNone } p.client.sslclient.caCert .unauthenticated rfl ?_).2 rfl
    exact fun args hsel => .insecure (hsel.insecure.trans hins) rfl
  have hins : p.client.useInsecure = false := by simpa using hins
  cases hconf : p.configured with
  | nil => simp [Undisturbed, hins, hconf]
  | cons source rest =>
      cases source with
      | insecure => simp [Undisturbed, hins, hconf]
      | caCert rootCA => exact undisturbed_caCert p hl hlaw hins rootCA rest hconf
      | caBundle bundle => exact undisturbed_caBundle p hl hlaw hins bundle rest hconf
      | preSharedKey i k => exact undisturbed_preSharedKey p hl hlaw hins i k rest hconf

/-- The law and the undisturbed states agree at every step. -/
theorem policyKept_iff (p : Policy) (call : Call) (hl : Linked p) :
    p.PolicyKept call ↔ p.ConnectsUndisturbed call := by
  cases call with
  | connect env overload =>
      refine ⟨fun h hplain => undisturbed_of_policyKept p hl env overload hplain h, ?_⟩
      exact policyKept_of_undisturbed p hl env overload
  | _ => exact Iff.rfl

/-- The trust policy: along every run of calls on a client, each connect
authenticates the server by the source configured last exactly when it is made
in an undisturbed state. -/
theorem trust_policy_iff (sock : Int) (calls : List Call) :
    Always step PolicyKept { client := .ofSocket sock } calls ↔
      Always step ConnectsUndisturbed { client := .ofSocket sock } calls :=
  EventRun.always_iff_of_inv step_linked policyKept_iff (linked_new sock) calls

/-- A sketch that turns verification off, then sets a bundle, then connects. -/
def insecureThenBundle : List Call :=
  [.set .insecure, .set (.caBundle (some [0, 0]) true),
    .connect (.smooth 0 (.offering .unauthenticated)) (.host ['h'] 443)]

/-- The connect of that sketch may come without authentication, although the
bundle was configured after `setInsecure`. -/
theorem bundle_after_insecure_ignored :
    ¬ Always step PolicyKept { client := .new } insecureThenBundle := by
  intro h
  have hconnect := h.2.2.1
  have hl : Linked (run step { client := .new } (insecureThenBundle.take 2)) :=
    EventRun.inv_run step_linked (linked_new (-1)) _
  have hu := undisturbed_of_policyKept _ hl _ _ rfl hconnect
  have hlast : some (Setting.caBundle (some [0, 0]) true) = some .insecure := hu
  exact absurd hlast (by decide)

end Policy

end ArduinoBeken.Tls
