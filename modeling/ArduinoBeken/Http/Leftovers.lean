import ArduinoBeken.Http.CredentialScope
import ArduinoBeken.Http.Opened

/-!
# What a `begin` Leaves

`connect` uses the connection of the client in use as long as it is open, and the
client object as long as there is one. Neither is compared with the target: it is
`begin` that has to close what belongs to another target. It closes a connection to
another host if the host is read from a URL, and drops an object when the two kinds of
`begin` are mixed and the object is connected.

What they leave is said here by the state before the call (`Call.left`), and each call
is shown to leave it (`Leaves`).

## Main definitions

* `Goal`, `Watched`: The target, and as history the client that `begin` was given.
* `Left`, `Call.left`: The target that a call sets, with the object and the connection
  that it leaves.
* `Leaves`: The world after such a call.

## Theorems

* `leaves_beginUrl`, `leaves_beginUrlCert`: A `begin` with a URL.
* `leaves_beginAt`, `leaves_beginHostCerts`: A `begin` with a host.
* `leaves_beginClientUrl`, `leaves_beginClientHost`: A `begin` with a client object.
-/

namespace ArduinoBeken

namespace Http

open Arrivals

/-- The target, what was asked for, and the client object that was given. -/
structure Goal where
  host : Text
  port : Nat
  asked : Asked
  given : Option Nat
deriving DecidableEq, Repr

namespace Goal

/-- The connection goes to the target. One to an `https` target was opened with the
configuration that was asked for. -/
def Reached (g : Goal) (t : Opened) : Prop :=
  t.host = g.host ∧ t.port = g.port ∧ (g.asked.https = true → t.config = g.asked.config)

/-- The object is the one that was given, and for `https` secure and configured as it was
then; or it is of the client's own making and of the kind that was asked for. -/
def Suits (g : Goal) (o : Nat) (settings : Settings) (own : Option Nat) : Prop :=
  match g.given with
  | some client =>
    o = client ∧
      (g.asked.https = true → settings.secure = true ∧ settings.config = g.asked.config)
  | none => own = some o ∧ settings.secure = g.asked.https

/-- The target of a URL, if it is one. -/
def toUrl (g : Goal) (u : Option Url) : Goal :=
  { g with host := (u.map Url.host).getD g.host, port := (u.bind Url.port).getD g.port }

end Goal

/-- The traits make objects of the kind that was asked for. -/
def Asked.Makes (a : Asked) : TransportTraits → Prop
  | .plain => a.https = false
  | .tls config => a.https = true ∧ a.config = some config

/-! ### What is left -/

/-- The client object that the last `begin` was given is history. -/
structure Watched where
  world : World
  given : Option Nat := none

/-- The target as the fields have it. -/
def Watched.goal (s : Watched) : Goal :=
  ⟨s.world.http.host, s.world.http.port, s.world.asked, s.given⟩

/-- What a call leaves: the target it sets, the client object, and the connection of
that. -/
structure Left where
  goal : Goal
  client : Option Nat
  opened : Option Opened
deriving DecidableEq, Repr

namespace World

/-- A `begin` without a client object mixes the kinds. -/
def mixes (w : World) : Bool :=
  w.http.client.isSome && !w.http.tcpDeprecated.isSome

/-- The object that such a `begin` finds. -/
def keptClient (w : World) : Option Nat :=
  if w.mixes && w.connected then none else w.http.client

/-- The open connection of an object that is given. -/
def brought (w : World) (client : Nat) : Option Opened :=
  if w.http.tcpDeprecated.isSome = true ∧ w.http.client = some client then none
  else w.opened client

end World

/-- The scheme of the URL is `https`. -/
def isHttps (url : Text) : Bool :=
  decide (urlProtocol url = some "https".toList)

namespace Watched

/-- A connection to another host than that of the URL is not left. -/
def leaves (s : Watched) (goal : Goal) (client : Option Nat) (opened : Option Opened)
    (u : Option Url) : Left :=
  ⟨goal.toUrl u, client, if (goal.toUrl u).host = s.world.http.host then opened else none⟩

/-- What a `begin` without a client object leaves, if it fails or not. -/
def leavesOwn (s : Watched) (goal : Goal) (u : Option Url) : Left :=
  s.leaves goal s.world.keptClient (s.world.keptClient.bind s.world.opened) u

end Watched

/-- What a call that sets a target leaves. -/
def Call.left (s : Watched) : Call → Option Left
  | .beginClientUrl client url =>
    let u := urlTarget ["http".toList, "https".toList] url
    let goal : Goal :=
      if u.isSome then
        ⟨s.world.http.host, if isHttps url then 443 else 80,
          ⟨isHttps url, (s.world.objects client).config⟩, some client⟩
      else { s.goal with given := some client }
    some (s.leaves goal (some client) (s.world.brought client) u)
  | .beginClientHost client host port _ https =>
    some ⟨⟨host, port, ⟨https, (s.world.objects client).config⟩, some client⟩, some client,
      s.world.brought client⟩
  | .beginUrl url =>
    let u := urlTarget ["http".toList, "https".toList] url
    let port := if u.isSome && !isHttps url then 80 else 443
    let goal : Goal :=
      if u.isSome then
        ⟨s.world.http.host, port,
          ⟨isHttps url, if isHttps url then some ⟨none, none, none⟩ else none⟩, none⟩
      else { s.goal with port := port }
    some (s.leavesOwn goal u)
  | .beginUrlCert url CAcert =>
    let u := urlTarget ["https".toList] url
    let goal : Goal :=
      if u.isSome then ⟨s.world.http.host, 443, ⟨true, some ⟨CAcert, none, none⟩⟩, none⟩
      else { s.goal with port := 443 }
    some (s.leavesOwn goal u)
  | .beginHost host port _ =>
    some ⟨⟨host, port, ⟨false, none⟩, none⟩, s.world.keptClient,
      s.world.keptClient.bind s.world.opened⟩
  | .beginHostCerts host port _ CAcert cli_cert cli_key =>
    let goal : Goal :=
      if CAcert = [] then { s.goal with host := host, port := port }
      else ⟨host, port, ⟨true, some ⟨some CAcert, cli_cert, cli_key⟩⟩, none⟩
    some ⟨goal, s.world.keptClient, s.world.keptClient.bind s.world.opened⟩
  | _ => none

/-- What is left is of the target. -/
def Left.Fits (l : Left) (w : World) : Prop :=
  (∀ o ∈ l.client, l.goal.Suits o (w.objects o).settings w.http.tcpDeprecated) ∧
    ∀ t ∈ l.opened, l.goal.Reached t

/-- The object given to a `begin`, or none if it does without. One that fails leaves
the old target. -/
def Call.given (s : Watched) : Call → Option Nat
  | .beginClientUrl client _ => some client
  | .beginClientHost client _ _ _ _ => some client
  | .beginUrl url => if (s.world.beginUrl url).2 then none else s.given
  | .beginUrlCert url CAcert => if (s.world.beginUrlCert url CAcert).2 then none else s.given
  | .beginHost _ _ _ => none
  | .beginHostCerts host port uri CAcert cli_cert cli_key =>
    if (s.world.beginHostCerts host port uri CAcert cli_cert cli_key).2 then none else s.given
  | _ => s.given

/-- The system with its history. -/
def watch (lib : TimeLibrary) (s : Watched) (e : Event) : Watched :=
  { world := step lib s.world e
    given :=
      match e with
      | .call c => if s.world.pending = none then c.given s else s.given
      | _ => s.given }

/-! ### What the calls leave -/

/-- The world after a call that leaves so much. A target of its own kind has traits
that make its objects, or it is the old one. -/
structure Leaves (s : Watched) (w' : World) (l : Left) : Prop where
  host : w'.http.host = l.goal.host
  port : w'.http.port = l.goal.port
  asked : w'.asked = l.goal.asked
  client : w'.http.client = l.client
  own : l.goal.given = none → l.client.isSome = true →
    w'.http.tcpDeprecated = s.world.http.tcpDeprecated
  settings : ∀ o, (w'.objects o).settings = (s.world.objects o).settings
  opened : ∀ o ∈ l.client, ∀ t ∈ w'.opened o, t ∈ l.opened
  traits : l.goal.given = none →
    (∃ t, w'.http.transportTraits = some t ∧ l.goal.asked.Makes t) ∨
      (s.given = none ∧ l.goal.asked = s.world.asked ∧
        (s.world.mixes = false → w'.http.client = s.world.http.client ∧
          w'.http.transportTraits = s.world.http.transportTraits))

/-- The connection that is left is the one there was, or none. -/
theorem mem_ite_none {α : Type} {p : Prop} [Decidable p] {x : Option α} {t : α}
    (h : t ∈ if p then x else none) : p ∧ t ∈ x := by
  by_cases hp : p
  · rw [if_pos hp] at h
    exact ⟨hp, h⟩
  · rw [if_neg hp] at h
    exact absurd h (Option.not_mem_none t)

namespace World

/-- The start of a `begin` without a client object, made once or twice. -/
structure OwnStart (w v : World) : Prop where
  host : v.http.host = w.http.host
  asked : v.asked = w.asked
  client : v.http.client = w.keptClient
  own : w.keptClient.isSome = true → v.http.tcpDeprecated = w.http.tcpDeprecated
  traits : w.mixes = false → v.http.client = w.http.client ∧
    v.http.transportTraits = w.http.transportTraits
  settings : ∀ o, (v.objects o).settings = (w.objects o).settings
  opened : ∀ o ∈ w.keptClient, v.opened o = w.opened o

theorem keptClient_isSome (w : World) (h : w.keptClient.isSome = true) :
    (w.mixes && w.connected) = false ∧ w.keptClient = w.http.client := by
  unfold keptClient at h ⊢
  by_cases hdrops : (w.mixes && w.connected) = true
  · rw [if_pos hdrops] at h
    exact absurd h (by decide)
  · rw [if_neg hdrops]
    exact ⟨Bool.not_eq_true _ ▸ hdrops, rfl⟩

theorem ownStart_beginOwn (w : World) : OwnStart w w.beginOwn := by
  have hended := ended_endMixed w w.mixes
  -- an object of its own that is still connected is ended by the start
  refine ⟨hended.host, hended.asked, hended.client, ?_, ?_, hended.settings, ?_⟩
  · intro hkept
    have hkeeps := (keptClient_isSome w hkept).1
    exact hended.tcpDeprecated.trans (if_neg (by rw [hkeeps]; exact Bool.false_ne_true))
  · intro hmixes
    have hkeeps : (w.mixes && w.connected) = false := by
      rw [hmixes]
      rfl
    exact ⟨hended.client.trans (if_neg (by rw [hkeeps]; exact Bool.false_ne_true)),
      hended.transportTraits hkeeps⟩
  · intro o ho
    have hkept := keptClient_isSome w (Option.isSome_iff_exists.2 ⟨o, ho⟩)
    refine (hended.opened o).trans ?_
    by_cases hmixed : w.mixes = true ∧ w.http.client = some o
    · -- It was not connected, or it would not have been kept.
      have hconn : w.connected = false := by
        have hkeeps := hkept.1
        rw [hmixed.1, Bool.true_and] at hkeeps
        exact hkeeps
      rw [if_pos hmixed]
      exact (opened_of_disconnected w o hmixed.2 hconn).symm
    · rw [if_neg hmixed]

/-- A second start finds nothing to end. -/
theorem ownStart_again (w v : World) (h : OwnStart w v) : OwnStart w v.beginOwn := by
  have hstart := ownStart_beginOwn v
  have hidle : (v.mixes && v.connected) = false := by
    rw [Bool.eq_false_iff]
    intro hdrops
    rw [Bool.and_eq_true] at hdrops
    rcases opened_of_connected v hdrops.2 with ⟨o, t, ho, ht⟩
    have hmem : o ∈ w.keptClient := h.client ▸ ho
    have hkept := keptClient_isSome w (Option.isSome_iff_exists.2 ⟨o, hmem⟩)
    have howner : w.http.client = some o := hkept.2 ▸ hmem
    -- Then the first start had the same object, connected, to end.
    have hconn : w.connected = true := by
      refine connected_of_opened w o howner ?_
      rw [← h.opened o hmem, ht]
      exact fun hno => nomatch hno
    have hmixes : w.mixes = true := by
      have hv := hdrops.1
      unfold mixes at hv ⊢
      rwa [h.client, h.own (Option.isSome_iff_exists.2 ⟨o, hmem⟩), hkept.2] at hv
    have hkeeps := hkept.1
    rw [hmixes, hconn] at hkeeps
    exact Bool.false_ne_true hkeeps.symm
  -- so the second start keeps what the first has kept
  have hkept : v.keptClient = w.keptClient := by
    unfold keptClient at *
    rw [if_neg (by rw [hidle]; exact Bool.false_ne_true)]
    exact h.client
  refine ⟨hstart.host.trans h.host, hstart.asked.trans h.asked, hstart.client.trans hkept, ?_, ?_,
    fun o => (hstart.settings o).trans (h.settings o), ?_⟩
  · intro hsome
    exact (hstart.own (hkept ▸ hsome)).trans (h.own hsome)
  -- without a mix the first start has changed neither object nor traits
  · intro hmixes
    have hsame := h.traits hmixes
    have hv : v.mixes = false := by
      unfold mixes at hmixes ⊢
      rw [hsame.1]
      cases hclient : w.http.client with
      | none => rfl
      | some o =>
          have hsome : w.keptClient.isSome = true := by
            rw [← h.client, hsame.1, hclient]
            rfl
          rw [h.own hsome]
          rw [hclient] at hmixes
          exact hmixes
    exact ⟨((hstart.traits hv).1).trans hsame.1, ((hstart.traits hv).2).trans hsame.2⟩
  · intro o ho
    exact (hstart.opened o (hkept ▸ ho)).trans (h.opened o ho)

end World

/-- A URL is aimed at from such a start. -/
theorem leaves_own (s : Watched) (v v' : World) (hv : World.OwnStart s.world v) (goal : Goal)
    (u : Option Url) (hhost : goal.host = s.world.http.host)
    (hturned : World.Turned { v with http := { v.http with port := goal.port } } v' u)
    (secure : Bool) (traits : Option TransportTraits)
    (htraits : goal.given = none →
      (∃ t, traits = some t ∧ goal.asked.Makes t) ∨
        (s.given = none ∧ goal.asked = s.world.asked ∧
          (s.world.mixes = false → traits = s.world.http.transportTraits))) :
    Leaves s
      { v' with
        http := { v'.http with secure := secure, transportTraits := traits }, asked := goal.asked }
      (s.leavesOwn goal u) := by
  -- The client object is the one that was kept, and the target is new.
  have hclient : v'.http.client = s.world.keptClient := hturned.client.trans hv.client
  have hnewHost : v'.http.host = (goal.toUrl u).host := by
    rw [hturned.host, Goal.toUrl, hhost, ← hv.host]
  refine ⟨hnewHost, hturned.port, rfl, hclient, ?_, ?_, ?_, ?_⟩
  · intro _ hkept
    exact hturned.tcpDeprecated.trans (hv.own hkept)
  · intro o
    exact (hturned.settings o).trans (hv.settings o)
  · intro o ho t ht
    have hopened := hturned.opened o (hv.client.trans ho)
    have ht' : t ∈ v'.opened o := ht
    rw [hopened, hnewHost] at ht'
    -- A connection that stays open was one to this host before.
    rcases mem_ite_none ht' with ⟨hsame, hmem⟩
    have hsame' : (goal.toUrl u).host = s.world.http.host := hsame.trans hv.host
    have hkept : s.world.keptClient = some o := ho
    simp only [Watched.leavesOwn, Watched.leaves, if_pos hsame', hkept, Option.bind_some]
    exact (hv.opened o ho) ▸ hmem
  · intro hown
    -- The traits are new ones, or those of a client object of the same kind.
    rcases htraits hown with hmakes | ⟨hgiven, hasked, hsame⟩
    · exact Or.inl hmakes
    · refine Or.inr ⟨hgiven, hasked, fun hmixes => ⟨?_, hsame hmixes⟩⟩
      exact hturned.client.trans (hv.traits hmixes).1

/-- Where a URL is not one of the protocol, the target stays, but for the port. -/
theorem leaves_failed (s : Watched) (v v' : World) (hv : World.OwnStart s.world v) (port : Nat)
    (hturned : World.Turned { v with http := { v.http with port := port } } v' none) :
    Leaves s v' (s.leavesOwn { s.goal with port := port } none) := by
  have hleaves := leaves_own s v v' hv { s.goal with port := port } none rfl hturned
    v'.http.secure v'.http.transportTraits (by
      intro hown
      refine Or.inr ⟨hown, rfl, fun hmixes => ?_⟩
      exact hturned.transportTraits.trans (hv.traits hmixes).2)
  have hasked : ({ s.goal with port := port } : Goal).asked = v'.asked := by
    rw [hturned.asked]
    exact hv.asked.symm
  rw [hasked] at hleaves
  exact hleaves

theorem leaves_beginUrlCert (s : Watched) (v : World) (hv : World.OwnStart s.world v.beginOwn)
    (url : Text) (CAcert : Option Text) :
    Leaves s (v.beginUrlCert url CAcert).1
        (s.leavesOwn
          (if (urlTarget ["https".toList] url).isSome then
            ⟨s.world.http.host, 443, ⟨true, some ⟨CAcert, none, none⟩⟩, none⟩
          else { s.goal with port := 443 })
          (urlTarget ["https".toList] url)) ∧
      (v.beginUrlCert url CAcert).2 = (urlTarget ["https".toList] url).isSome := by
  have hturned := World.turned_beginInternal
    { v.beginOwn with http := { v.beginOwn.http with port := 443 } } url "https".toList
  unfold World.beginUrlCert
  simp only []
  -- the URL is read, or nothing is taken of it
  cases hu : urlTarget ["https".toList] url with
  | some u =>
      rw [hu] at hturned
      simp only [hturned.2, Option.isSome_some, if_true]
      refine ⟨?_, trivial⟩
      exact leaves_own s v.beginOwn _ hv ⟨s.world.http.host, 443, ⟨true, some ⟨CAcert, none, none⟩⟩,
        none⟩ (some u) rfl hturned.1 true _ (fun _ => Or.inl ⟨_, rfl, rfl, rfl⟩)
  | none =>
      rw [hu] at hturned
      simp only [hturned.2, Option.isSome_none, Bool.false_eq_true, if_false]
      exact ⟨leaves_failed s v.beginOwn _ hv 443 hturned.1, trivial⟩

/-- A URL of either protocol is one of `http` or one of `https`. -/
theorem urlTarget_both (url : Text) :
    (∃ u, urlTarget ["http".toList] url = some u ∧
        urlTarget ["http".toList, "https".toList] url = some u ∧ isHttps url = false) ∨
      (urlTarget ["http".toList] url = none ∧
        urlTarget ["http".toList, "https".toList] url = urlTarget ["https".toList] url ∧
        (urlTarget ["https".toList] url).isSome = isHttps url) := by
  unfold urlTarget isHttps
  cases urlProtocol url with
  | none => exact Or.inr ⟨rfl, rfl, rfl⟩
  | some protocol =>
      simp only [List.mem_cons, List.not_mem_nil, or_false, Option.some.injEq]
      by_cases hhttp : protocol = "http".toList
      · left
        subst hhttp
        exact ⟨readUrl url, rfl, rfl, rfl⟩
      · right
        simp only [hhttp, false_or, if_false]
        by_cases hhttps : protocol = "https".toList
        · simp only [hhttps, if_true]
          exact ⟨trivial, trivial, rfl⟩
        · simp only [hhttps, if_false]
          exact ⟨trivial, trivial, rfl⟩

theorem leaves_beginUrl (s : Watched) (url : Text) :
    ∃ l, (Call.beginUrl url).left s = some l ∧ Leaves s (s.world.beginUrl url).1 l ∧
      (Call.beginUrl url).given s = l.goal.given := by
  have hv := World.ownStart_beginOwn s.world
  have hturned := World.turned_beginInternal
    { s.world.beginOwn with http := { s.world.beginOwn.http with port := 80 } } url "http".toList
  -- the plain protocol is tried first
  rcases urlTarget_both url with ⟨u, hu, hboth, hhttp⟩ | ⟨hnone, hboth, hhttps⟩
  · rw [hu] at hturned
    refine ⟨_, rfl, ?_, ?_⟩
    · rw [hboth, hhttp]
      unfold World.beginUrl
      simp only [hturned.2, Option.isSome_some, if_true]
      exact leaves_own s s.world.beginOwn _ hv ⟨s.world.http.host, 80, ⟨false, none⟩, none⟩
        (some u) rfl hturned.1 _ _ (fun _ => Or.inl ⟨.plain, rfl, rfl⟩)
    · simp only [Call.given, World.beginUrl, hturned.2, Option.isSome_some, if_true, hboth,
        Watched.leavesOwn, Watched.leaves, Goal.toUrl]
  -- a URL that is not plain is tried as a secure one, behind a whole start
  · rw [hnone] at hturned
    -- What the first attempt leaves is a start as well.
    have hagain : World.OwnStart s.world
        ({ s.world.beginOwn with http := { s.world.beginOwn.http with port := 80 } }.beginInternal
          url "http".toList).1 := by
      have hturn := hturned.1
      refine ⟨hturn.host.trans hv.host, hturn.asked.trans hv.asked, hturn.client.trans hv.client,
        fun hkept => hturn.tcpDeprecated.trans (hv.own hkept), ?_,
        fun o => (hturn.settings o).trans (hv.settings o), ?_⟩
      · intro hmixes
        exact ⟨hturn.client.trans (hv.traits hmixes).1,
          hturn.transportTraits.trans (hv.traits hmixes).2⟩
      · intro o ho
        have hopened := hturn.opened o (hv.client.trans ho)
        exact (hopened.trans (if_pos hturn.host)).trans (hv.opened o ho)
    have hcert := leaves_beginUrlCert s _ (World.ownStart_again s.world _ hagain) url none
    have hbegin : s.world.beginUrl url =
        ({ s.world.beginOwn with http := { s.world.beginOwn.http with port := 80 } }.beginInternal
          url "http".toList).1.beginUrlCert url none := by
      unfold World.beginUrl
      simp only [hturned.2, Option.isSome_none, Bool.false_eq_true, if_false]
    refine ⟨_, rfl, ?_, ?_⟩
    · rw [hbegin, hboth, hhttps]
      rw [hhttps] at hcert
      cases h : isHttps url with
      | true =>
          rw [h] at hcert
          exact hcert.1
      | false =>
          rw [h] at hcert
          exact hcert.1
    · simp only [Call.given, hbegin, hcert.2, hboth, Watched.leavesOwn, Watched.leaves, Goal.toUrl]
      cases (urlTarget ["https".toList] url).isSome <;> rfl

/-- A target that is set without a URL. The connection that is kept is not looked at. -/
theorem leaves_beginAt (s : Watched) (goal : Goal) (uri : Text) (secure : Bool)
    (traits : Option TransportTraits)
    (htraits : goal.given = none →
      (∃ t, traits = some t ∧ goal.asked.Makes t) ∨
        (s.given = none ∧ goal.asked = s.world.asked ∧
          (s.world.mixes = false → traits = s.world.http.transportTraits))) :
    Leaves s
      { s.world.beginAt goal.host goal.port uri with
        http := { (s.world.beginAt goal.host goal.port uri).http with
          secure := secure, transportTraits := traits }
        asked := goal.asked }
      ⟨goal, s.world.keptClient, s.world.keptClient.bind s.world.opened⟩ := by
  have hv := World.ownStart_beginOwn s.world
  refine ⟨rfl, rfl, rfl, hv.client, fun _ hkept => hv.own hkept, hv.settings, ?_, ?_⟩
  · intro o ho t ht
    have hkept : s.world.keptClient = some o := ho
    rw [hkept, Option.bind_some]
    exact (hv.opened o ho) ▸ ht
  · intro hown
    rcases htraits hown with hmakes | ⟨hgiven, hasked, hsame⟩
    · exact Or.inl hmakes
    · exact Or.inr ⟨hgiven, hasked, fun hmixes => ⟨(hv.traits hmixes).1, hsame hmixes⟩⟩

theorem leaves_beginHostCerts (s : Watched) (host : Text) (port : Nat) (uri CAcert : Text)
    (cli_cert cli_key : Option Text) :
    ∃ l, (Call.beginHostCerts host port uri CAcert cli_cert cli_key).left s = some l ∧
      Leaves s (s.world.beginHostCerts host port uri CAcert cli_cert cli_key).1 l ∧
      (Call.beginHostCerts host port uri CAcert cli_cert cli_key).given s = l.goal.given := by
  refine ⟨_, rfl, ?_, ?_⟩
  · unfold World.beginHostCerts
    -- without a certificate the traits stay what they were
    by_cases hcert : CAcert = []
    · simp only [if_pos hcert]
      have hv := World.ownStart_beginOwn s.world
      have hasked : (s.world.beginAt host port uri).asked = s.world.asked := hv.asked
      have hleaves := leaves_beginAt s { s.goal with host := host, port := port } uri
        (s.world.beginAt host port uri).http.secure
        (s.world.beginAt host port uri).http.transportTraits
        (fun hown => Or.inr ⟨hown, rfl, fun hmixes => (hv.traits hmixes).2⟩)
      simp only [Watched.goal, ← hasked] at hleaves ⊢
      exact hleaves
    · simp only [if_neg hcert]
      exact leaves_beginAt s ⟨host, port, ⟨true, some ⟨some CAcert, cli_cert, cli_key⟩⟩, none⟩ uri
        true _ (fun _ => Or.inl ⟨_, rfl, rfl, rfl⟩)
  · simp only [Call.given, World.beginHostCerts]
    by_cases hcert : CAcert = []
    · simp only [if_pos hcert, Bool.false_eq_true, if_false]
      rfl
    · simp only [if_neg hcert, if_true]

/-- The connection of an object that is given, behind the start of such a `begin`. -/
theorem opened_brought (w : World) (client : Nat) :
    (w.endMixed w.http.tcpDeprecated.isSome).opened client = w.brought client :=
  (World.ended_endMixed w w.http.tcpDeprecated.isSome).opened client

theorem leaves_beginClientHost (s : Watched) (client : Nat) (host : Text) (port : Nat) (uri : Text)
    (https : Bool) :
    Leaves s (s.world.beginClientHost client host port uri https).1
      ⟨⟨host, port, ⟨https, (s.world.objects client).config⟩, some client⟩, some client,
        s.world.brought client⟩ := by
  have hended := World.ended_endMixed s.world s.world.http.tcpDeprecated.isSome
  have hconfig := congrArg Settings.config (hended.settings client)
  refine ⟨rfl, rfl, congrArg (Asked.mk https) hconfig, rfl, fun hno => (nomatch hno),
    hended.settings, ?_, fun hno => (nomatch hno)⟩
  intro o ho t ht
  rw [← Option.some.inj ho] at ht
  rw [← opened_brought]
  exact ht

/-- A URL is aimed at with an object that is given. -/
theorem leaves_given (s : Watched) (client : Nat) (v v' : World)
    (hv : World.Ended s.world v s.world.http.tcpDeprecated.isSome) (goal : Goal) (u : Option Url)
    (hhost : goal.host = s.world.http.host) (hgoal : goal.given = some client) (secure : Bool)
    (fresh : Nat)
    (hturned : World.Turned { v with
      http := { v.http with client := some client, port := goal.port, secure := secure }
      fresh := fresh } v' u) :
    Leaves s { v' with asked := goal.asked }
      (s.leaves goal (some client) (s.world.brought client) u) := by
  have hnewHost : v'.http.host = (goal.toUrl u).host := by
    rw [hturned.host, Goal.toUrl, hhost, ← hv.host]
  -- the client was given, so nothing is asked of one of its own making
  have howned : (s.leaves goal (some client) (s.world.brought client) u).goal.given ≠ none := by
    intro hno
    exact absurd (hgoal.symm.trans hno) (fun h => nomatch h)
  refine ⟨hnewHost, hturned.port, rfl, hturned.client, fun hno => absurd hno howned,
    fun o => (hturned.settings o).trans (hv.settings o), ?_, fun hno => absurd hno howned⟩
  -- what is open was open before, and it is the client that was brought
  intro o ho t ht
  have ht' : t ∈ v'.opened o := ht
  rw [hturned.opened o ho, hnewHost] at ht'
  rcases mem_ite_none ht' with ⟨hsame, hmem⟩
  have hsame' : (goal.toUrl u).host = s.world.http.host := hsame.trans hv.host
  have hbrought : v.opened client = s.world.brought client := hv.opened client
  rw [← Option.some.inj ho] at hmem
  simp only [Watched.leaves, if_pos hsame']
  exact hbrought ▸ hmem

/-- Without a protocol that is known only the object is taken. -/
theorem leaves_untaken (s : Watched) (client : Nat) (v : World)
    (hv : World.Ended s.world v s.world.http.tcpDeprecated.isSome) (fresh : Nat) :
    Leaves s { v with http := { v.http with client := some client }, fresh := fresh }
      (s.leaves { s.goal with given := some client } (some client) (s.world.brought client)
        none) := by
  have hport : ({ s.goal with given := some client } : Goal).port = v.http.port := hv.port.symm
  have hasked : ({ s.goal with given := some client } : Goal).asked = v.asked := hv.asked.symm
  have hleaves := leaves_given s client v _ hv { s.goal with given := some client } none rfl rfl
    v.http.secure fresh ⟨rfl, rfl, rfl, rfl, rfl, rfl, fun _ => rfl, fun _ _ => (if_pos rfl).symm⟩
  rw [hport, hasked] at hleaves
  exact hleaves

theorem leaves_beginClientUrl (s : Watched) (client : Nat) (url : Text) :
    ∃ l, (Call.beginClientUrl client url).left s = some l ∧
      Leaves s (s.world.beginClientUrl client url).1 l ∧ l.goal.given = some client := by
  have hended := World.ended_endMixed s.world s.world.http.tcpDeprecated.isSome
  -- The two schemes together are those that are known.
  have hboth : urlTarget ["http".toList, "https".toList] url =
      (urlProtocol url).bind fun protocol =>
        if protocol = "http".toList ∨ protocol = "https".toList then some (readUrl url)
        else none := by
    unfold urlTarget
    cases urlProtocol url with
    | none => rfl
    | some protocol =>
        simp only [Option.bind_some, List.mem_cons, List.not_mem_nil, or_false]
  refine ⟨_, rfl, ?_, ?_⟩
  · unfold World.beginClientUrl
    -- Whatever is ended first, the target depends on the URL alone.
    generalize s.world.endMixed s.world.http.tcpDeprecated.isSome = v at hended ⊢
    cases hp : urlProtocol url with
    | none =>
        rw [hp, Option.bind_none] at hboth
        simp only [hboth]
        exact leaves_untaken s client v hended _
    | some protocol =>
        rw [hp, Option.bind_some] at hboth
        simp only
        by_cases hknown : protocol = "http".toList ∨ protocol = "https".toList
        · rw [if_pos hknown] at hboth
          have hhttps : isHttps url = decide (protocol = "https".toList) := by
            simp only [isHttps, hp, Option.some.injEq]
          have hport : (if decide (protocol = "https".toList) = true then 443 else 80) =
              portFor protocol := by
            rw [portFor]
            simp only [decide_eq_true_eq]
          have hturned := World.turned_beginInternal
            { v with
              http := { v.http with
                client := some client, port := portFor protocol,
                secure := decide (protocol = "https".toList) }
              fresh := max v.fresh (client + 1) } url protocol
          -- The URL is taken for its own scheme.
          have htarget : urlTarget [protocol] url = some (readUrl url) := by
            rw [urlTarget_of_protocol _ url protocol hp, if_pos (List.mem_singleton.2 rfl)]
          rw [htarget] at hturned
          rw [if_neg fun hno => hknown.elim hno.1 hno.2, hboth, hhttps, hport]
          simp only [Option.isSome_some, if_true, hturned.2]
          -- The client is configured as it was before.
          have hconfig := congrArg Settings.config
            ((hturned.1.settings client).trans (hended.settings client))
          have hleaves := leaves_given s client v _ hended ⟨s.world.http.host, portFor protocol,
            ⟨decide (protocol = "https".toList), (s.world.objects client).config⟩, some client⟩
            (some (readUrl url)) rfl rfl _ _ hturned.1
          have hasked := congrArg (Asked.mk (decide (protocol = "https".toList))) hconfig
          simp only [NetObject.settings] at hasked
          simp only [hasked]
          exact hleaves
        · -- An unknown scheme is refused, and the target stays.
          rw [if_neg hknown] at hboth
          rw [if_pos (not_or.1 hknown), hboth]
          exact leaves_untaken s client v hended _
  · simp only [Watched.leaves, Goal.toUrl]
    split <;> rfl

end Http

end ArduinoBeken
