import ArduinoBeken.Http.Request

/-!
# What the Calls Aim at

Each kind of `begin` either fails before it changes the host, or makes a new host the
target; `setURL` and the redirects stay with the host. Here the parts of the model are given
by equations without their case splits, and the calls by the target they set.

## Main definitions

* `urlTarget`, `Call.target`: The URL that a call aims at.
* `World.aim`: The client aimed at a URL.
* `Retargets`: What a call does to the target, the credential and the headers.

## Theorems

* `beginInternal_eq`, `setURL_cases`: The parts.
* `perform_retargets`: The calls.
* `pending_perform`, `undefined_perform`: What no call changes.
-/

namespace ArduinoBeken

namespace Http

local instance lawfulBEqText : LawfulBEq Text := inferInstance

/-- The parts of a URL of one of the protocols. -/
def urlTarget (protocols : List Text) (url : Text) : Option Url :=
  match urlProtocol url with
  | some protocol => if protocol ∈ protocols then some (readUrl url) else none
  | none => none

namespace World

/-- The connection of the client in use is closed. -/
def closed (w : World) : World :=
  w.withLink none

/-- The client aimed at a URL. A connection to another host is closed. -/
def aim (w : World) (protocol : Text) (u : Url) : World :=
  let closes := w.http.host ≠ u.host ∧ w.connected = true
  { (if closes then w.closed else w) with
    http := { w.http with
      protocol := protocol
      base64Authorization := (u.auth.map base64Encode).getD w.http.base64Authorization
      port := u.port.getD w.http.port
      canReuse := if closes then false else w.http.canReuse
      host := u.host
      uri := u.uri }
    credentialHost := if u.auth.isSome then u.host else w.credentialHost }

/-- Putting the connection back as it is changes nothing. -/
theorem withLink_link (w : World) : w.withLink w.link = w := by
  unfold withLink link
  cases w.http.client with
  | none => rfl
  | some o =>
      have hobject : (w.objects o).withLink (w.objects o).link = w.objects o := by
        rcases w.objects o with ⟨secure, config, connection⟩
        cases connection <;> rfl
      simp only [hobject, Function.update_eq_self]

/-- Changing the link leaves the object's fields alone. -/
theorem withLink_http (w : World) (link : Link) :
    { w.withLink link with http := w.http } = w.withLink link := by
  unfold withLink
  split <;> rfl

/-- A disconnect that keeps the client object. -/
theorem disconnect_preserving (w : World) :
    w.disconnect true =
      if w.connected = true ∧ (w.http.reuse && w.http.canReuse) = false then w.closed else w := by
  have hclient : w.http.disconnect w.link true =
      (w.http, if w.connected = true ∧ (w.http.reuse && w.http.canReuse) = false then none
        else w.link) := by
    unfold HTTPClient.disconnect connected
    by_cases hconn : Http.connected w.link = true
    · by_cases hreuse : (w.http.reuse && w.http.canReuse) = true
      · rw [if_pos hconn, if_pos hreuse, if_neg (by rw [hreuse]; exact fun h => nomatch h.2)]
      · rw [if_pos hconn, if_neg hreuse, if_pos rfl,
          if_pos ⟨hconn, Bool.not_eq_true _ ▸ hreuse⟩]
    · rw [if_neg hconn, if_neg fun h => hconn h.1]
  unfold disconnect
  rw [hclient]
  simp only [withLink_http]
  split
  · rfl
  · exact withLink_link w

/-- The connection to another host is closed whatever else has changed. -/
theorem closed_aside (w : World) (http : HTTPClient) (credentialHost : Text)
    (hclient : http.client = w.http.client) :
    ({ w with http := http, credentialHost := credentialHost } : World).closed =
      { w.closed with http := http, credentialHost := credentialHost } := by
  unfold closed withLink
  simp only [hclient]
  cases w.http.client <;> rfl

/-- What `beginInternal` does with the URL's user and password. -/
theorem keepAuth_eq (w : World) (u : Url) :
    w.keepAuth u = { w with
      http := { w.http with
        base64Authorization := (u.auth.map base64Encode).getD w.http.base64Authorization }
      credentialHost := if u.auth.isSome then u.host else w.credentialHost } := by
  unfold keepAuth
  cases u.auth <;> rfl

/-- A change of host ends the connection to the former one. -/
theorem switchHost_eq (w : World) (the_host : Text) :
    w.switchHost the_host =
      if w.http.host ≠ the_host ∧ w.connected = true then
        { w.closed with http := { w.http with canReuse := false } }
      else w := by
  unfold switchHost
  by_cases h : w.http.host ≠ the_host ∧ w.connected = true
  · rw [if_pos h, if_pos h, disconnect_preserving, if_pos ⟨h.2, Bool.and_false _⟩]
    refine (closed_aside w { w.http with canReuse := false } w.credentialHost rfl).trans ?_
    rw [← (sameCalls_withLink w none).credentialHost]
    rfl
  · rw [if_neg h, if_neg h]

/-- Aiming, from the protocol, the credential and the port on. -/
theorem aim_eq (w v : World) (protocol : Text) (u : Url)
    (hv : v = { w with
      http := { w.http with
        protocol := protocol
        base64Authorization := (u.auth.map base64Encode).getD w.http.base64Authorization
        port := u.port.getD w.http.port }
      credentialHost := if u.auth.isSome then u.host else w.credentialHost }) :
    ({ v.switchHost u.host with
      http := { (v.switchHost u.host).http with host := u.host, uri := u.uri } } : World) =
        w.aim protocol u := by
  have hhost : v.http.host = w.http.host := by rw [hv]
  have hconn : v.connected = w.connected := by rw [hv]; rfl
  have hclosed : v.closed =
      { w.closed with http := v.http, credentialHost := v.credentialHost } := by
    rw [hv]
    exact closed_aside w _ _ rfl
  rw [switchHost_eq, hhost, hconn]
  by_cases h : w.http.host ≠ u.host ∧ w.connected = true
  · rw [if_pos h, hclosed, aim, if_pos h, if_pos h, hv]
  · rw [if_neg h, aim, if_neg h, if_neg h, hv]

/-- A URL of the protocol is aimed at, and another one only changes the
protocol. -/
theorem beginInternal_eq (w : World) (url expectedProtocol : Text) :
    w.beginInternal url expectedProtocol =
      match urlTarget [expectedProtocol] url with
      | some u => (w.aim expectedProtocol u, true)
      | none =>
        (match urlProtocol url with
        | some protocol => { w with http := { w.http with protocol := protocol } }
        | none => w, false) := by
  unfold beginInternal urlTarget
  cases hp : urlProtocol url with
  | none => rfl
  | some protocol =>
      by_cases hexpected : protocol = expectedProtocol
      · subst hexpected
        simp only [List.mem_singleton, if_true, ne_eq, not_true_eq_false, if_false, keepAuth_eq]
        exact congrArg (·, true) (aim_eq w _ protocol (readUrl url) rfl)
      · have hne : protocol ∉ [expectedProtocol] := by
          rw [List.mem_singleton]
          exact hexpected
        simp only [if_neg hne, if_pos hexpected, ne_eq]

/-- `setURL` takes a path, refuses a URL of another protocol, and misreads one of the
protocol in use. -/
theorem setURL_cases (w : World) (url : Text) :
    (isPath url = true ∧
        w.setURL url = ({ w with http := { w.http.clear with uri := url } }, true)) ∨
      (isPath url = false ∧ w.readsFreed url = false ∧ w.setURL url = (w, false)) ∨
      (w.readsFreed url = true ∧ (w.setURL url).2 = false ∧
        (w.setURL url).1.undefined = true ∧ (w.setURL url).1.pending = w.pending ∧
        (w.setURL url).1.credentialHost = w.credentialHost ∧
        ∃ port client dep traits, (w.setURL url).1.http =
          { w.http with port := port, canReuse := true }.withObjects client dep traits) := by
  -- a path only replaces the path
  by_cases hpath : isPath url = true
  · left
    rw [setURL, if_pos hpath]
    exact ⟨hpath, rfl⟩
  · right
    unfold setURL readsFreed misread
    -- anything else is compared with the protocol that is freed meanwhile
    rw [Bool.not_eq_true] at hpath
    simp only [hpath, Bool.false_eq_true, if_false, Bool.not_false, Bool.true_and]
    cases startsWith url (w.http.protocol ++ [':']) with
    | false =>
        exact Or.inl ⟨trivial, rfl, rfl⟩
    | true =>
        right
        rcases disconnect_frame { w with
          http := { w.http with
            port := if namesPort url then w.http.port else portFor w.http.protocol
            canReuse := true } } true with ⟨client, dep, traits, hhttp, hcred, -, hpending, -⟩
        exact ⟨rfl, rfl, rfl, hpending, hcred, _, client, dep, traits, hhttp⟩

end World

/-- What a call does to the host, the credential and the headers, by the target
that it sets. -/
structure Retargets (w w' : World) (t : Option Url) : Prop where
  host : w'.http.host = (t.map Url.host).getD w.http.host
  credential : w'.http.base64Authorization =
    ((t.bind Url.auth).map base64Encode).getD w.http.base64Authorization
  credentialHost : w'.credentialHost =
    if (t.bind Url.auth).isSome then w'.http.host else w.credentialHost
  headers : w'.http.headers = w.http.headers ∨ w'.http.headers = []

namespace Retargets

variable {w v w' : World} {t : Option Url}

theorem refl (w : World) : Retargets w w none := ⟨rfl, rfl, rfl, Or.inl rfl⟩

/-- What does not retarget may come before. -/
theorem after (h : Retargets w v none) (h' : Retargets v w' t) : Retargets w w' t := by
  refine ⟨?_, ?_, ?_, ?_⟩
  · rw [h'.host, h.host]
    rfl
  · rw [h'.credential, h.credential]
    rfl
  · rw [h'.credentialHost, h.credentialHost]
    rfl
  · rcases h'.headers with heq | heq
    · rw [heq]
      exact h.headers
    · exact Or.inr heq

/-- What does not retarget may come behind. -/
theorem before (h : Retargets w v t) (h' : Retargets v w' none) : Retargets w w' t := by
  have hhost : w'.http.host = v.http.host := h'.host
  refine ⟨hhost.trans h.host, (h'.credential).trans h.credential, ?_, ?_⟩
  · rw [h'.credentialHost, hhost]
    exact h.credentialHost
  · rcases h'.headers with heq | heq
    · rw [heq]
      exact h.headers
    · exact Or.inr heq

end Retargets

/-- `disconnect` chooses no target. -/
theorem retargets_disconnect (w : World) (preserveClient : Bool) :
    Retargets w (w.disconnect preserveClient) none := by
  rcases w.disconnect_frame preserveClient with ⟨client, dep, traits, hhttp, hcred, -⟩
  exact ⟨by rw [hhttp]; rfl, by rw [hhttp]; rfl, hcred, Or.inl (by rw [hhttp]; rfl)⟩

/-- `end` chooses no target. -/
theorem retargets_finish (w : World) : Retargets w w.finish none :=
  (retargets_disconnect w false).before ⟨rfl, rfl, rfl, Or.inr rfl⟩

/-- Ending a mixed use chooses no target. -/
theorem retargets_endMixed (w : World) (mixed : Bool) : Retargets w (w.endMixed mixed) none := by
  unfold World.endMixed
  split
  · have hfinish := retargets_finish { w with http := { w.http with canReuse := false } }
    refine Retargets.after ?_ hfinish
    exact ⟨rfl, rfl, rfl, Or.inl rfl⟩
  · exact Retargets.refl w

/-- `beginInternal` takes the target of the URL's own text. -/
theorem retargets_beginInternal (w : World) (url expectedProtocol : Text) :
    Retargets w (w.beginInternal url expectedProtocol).1 (urlTarget [expectedProtocol] url) := by
  rw [World.beginInternal_eq]
  cases urlTarget [expectedProtocol] url with
  | some u =>
      refine ⟨rfl, rfl, ?_, Or.inl rfl⟩
      rfl
  | none =>
      simp only []
      split
      · exact ⟨rfl, rfl, rfl, Or.inl rfl⟩
      · exact Retargets.refl w

/-- A URL that `setURL` aims at is misread, so it sets no target. -/
theorem retargets_setURL (w : World) (url : Text) : Retargets w (w.setURL url).1 none := by
  rcases w.setURL_cases url with ⟨-, hset⟩ | ⟨-, -, hset⟩ |
    ⟨-, -, -, -, hcred, port, client, dep, traits, hhttp⟩
  · rw [hset]
    exact ⟨rfl, rfl, rfl, Or.inr rfl⟩
  · rw [hset]
    exact Retargets.refl w
  · exact ⟨by rw [hhttp]; rfl, by rw [hhttp]; rfl, hcred, Or.inl (by rw [hhttp]; rfl)⟩

/-! ### The calls -/

/-- A host and port given directly. -/
def directUrl (host : Text) (port : Nat) (uri : Text) : Url :=
  { auth := none, host, port := some port, uri }

/-- The target that a call sets. -/
def Call.target : Call → Option Url
  | .beginClientUrl _ url => urlTarget ["http".toList, "https".toList] url
  | .beginClientHost _ host port uri _ => some (directUrl host port uri)
  | .beginUrl url => urlTarget ["http".toList, "https".toList] url
  | .beginUrlCert url _ => urlTarget ["https".toList] url
  | .beginHost host port uri => some (directUrl host port uri)
  | .beginHostCerts host port uri _ _ _ => some (directUrl host port uri)
  | _ => none

/-- A URL's target is what it reads to, where its protocol is one of those expected. -/
theorem urlTarget_of_protocol (protocols : List Text) (url protocol : Text)
    (h : urlProtocol url = some protocol) :
    urlTarget protocols url = if protocol ∈ protocols then some (readUrl url) else none := by
  rw [urlTarget, h]

/-- Making an own client chooses no target. -/
theorem retargets_beginOwn (w : World) : Retargets w w.beginOwn none :=
  (retargets_endMixed w _).before ⟨rfl, rfl, rfl, Or.inr rfl⟩

/-- `begin` with host, port and path takes these. -/
theorem retargets_beginAt (w : World) (host : Text) (port : Nat) (uri : Text) :
    Retargets w (w.beginAt host port uri) (some (directUrl host port uri)) :=
  (retargets_beginOwn w).after ⟨rfl, rfl, rfl, Or.inl rfl⟩

/-- `begin` with a client and a URL takes the URL's target. -/
theorem retargets_beginClientUrl (w : World) (client : Nat) (url : Text) :
    Retargets w (w.beginClientUrl client url).1
      (urlTarget ["http".toList, "https".toList] url) := by
  unfold World.beginClientUrl
  generalize hv : w.endMixed w.http.tcpDeprecated.isSome = v
  have hmixed := hv ▸ retargets_endMixed w w.http.tcpDeprecated.isSome
  refine hmixed.after ?_
  cases hp : urlProtocol url with
  | none =>
      rw [urlTarget, hp]
      exact ⟨rfl, rfl, rfl, Or.inl rfl⟩
  | some protocol =>
      rw [urlTarget_of_protocol _ url protocol hp]
      simp only [List.mem_cons, List.not_mem_nil, or_false]
      -- each of the two schemes is read as its own
      by_cases hknown : protocol = "http".toList ∨ protocol = "https".toList
      · rw [if_pos hknown, if_neg (fun h => hknown.elim h.1 h.2)]
        have hbegin := retargets_beginInternal { v with
          http := { v.http with
            client := some client, port := portFor protocol,
            secure := decide (protocol = "https".toList) }
          fresh := max v.fresh (client + 1) } url protocol
        rw [urlTarget_of_protocol _ url protocol hp, if_pos (List.mem_singleton.2 rfl)] at hbegin
        exact ⟨hbegin.host, hbegin.credential, hbegin.credentialHost, hbegin.headers⟩
      · rw [if_neg hknown, if_pos (not_or.1 hknown)]
        exact ⟨rfl, rfl, rfl, Or.inl rfl⟩

/-- `begin` with a certificate takes the target of an `https` URL. -/
theorem retargets_beginUrlCert (w : World) (url : Text) (CAcert : Option Text) :
    Retargets w (w.beginUrlCert url CAcert).1 (urlTarget ["https".toList] url) := by
  unfold World.beginUrlCert
  refine (retargets_beginOwn w).after ?_
  have hbegin := retargets_beginInternal
    { w.beginOwn with http := { w.beginOwn.http with port := 443 } } url "https".toList
  simp only []
  split
  · exact ⟨hbegin.host, hbegin.credential, hbegin.credentialHost, hbegin.headers⟩
  · exact ⟨hbegin.host, hbegin.credential, hbegin.credentialHost, hbegin.headers⟩

/-- `begin` with a URL takes its target. -/
theorem retargets_beginUrl (w : World) (url : Text) :
    Retargets w (w.beginUrl url).1 (urlTarget ["http".toList, "https".toList] url) := by
  unfold World.beginUrl
  refine (retargets_beginOwn w).after ?_
  -- The first attempt is made for http.
  let v : World := { w.beginOwn with http := { w.beginOwn.http with port := 80 } }
  have hbegin : Retargets w.beginOwn (v.beginInternal url "http".toList).1
      (urlTarget ["http".toList] url) := by
    have hinner := retargets_beginInternal v url "http".toList
    exact ⟨hinner.host, hinner.credential, hinner.credentialHost, hinner.headers⟩
  have hok : (v.beginInternal url "http".toList).2 = (urlTarget ["http".toList] url).isSome := by
    rw [World.beginInternal_eq]
    cases urlTarget ["http".toList] url <;> rfl
  -- What both schemes take, one of them takes.
  have htarget : urlTarget ["http".toList, "https".toList] url =
      (urlTarget ["http".toList] url).or (urlTarget ["https".toList] url) := by
    unfold urlTarget
    cases urlProtocol url with
    | none => rfl
    | some protocol =>
        simp only [List.mem_cons, List.not_mem_nil, or_false]
        by_cases hhttp : protocol = "http".toList
        · rw [if_pos (Or.inl hhttp), if_pos hhttp]
          rfl
        · rw [if_neg hhttp, Option.none_or]
          simp only [hhttp, false_or]
  rw [htarget]
  simp only [v] at hok hbegin
  simp only [hok]
  cases hu : urlTarget ["http".toList] url with
  -- A URL of http is taken; else the second attempt decides.
  | some u =>
      rw [hu] at hbegin
      exact ⟨hbegin.host, hbegin.credential, hbegin.credentialHost, hbegin.headers⟩
  | none =>
      rw [hu] at hbegin
      exact hbegin.after (retargets_beginUrlCert _ url none)

/-- The calls that set the credential or add a header are not described by a
target. -/
def Call.Plain : Call → Prop
  | .setAuthorization _ _ | .setAuthorizationCode _ | .addHeader _ _ _ _ => False
  | _ => True

/-- A call retargets the client as its target says. -/
theorem perform_retargets (w : World) (c : Call) (h : c.Plain) :
    Retargets w (w.perform c) c.target := by
  -- Only the kinds of `begin` and `setURL` have a target; reading and the settings have none.
  cases c with
  | beginClientUrl client url => exact retargets_beginClientUrl w client url
  | beginClientHost client host port uri https =>
      exact (retargets_endMixed w _).after ⟨rfl, rfl, rfl, Or.inr rfl⟩
  | beginUrl url => exact retargets_beginUrl w url
  | beginUrlCert url CAcert => exact retargets_beginUrlCert w url CAcert
  | beginHost host port uri =>
      exact (retargets_beginAt w host port uri).before ⟨rfl, rfl, rfl, Or.inl rfl⟩
  | beginHostCerts host port uri CAcert cli_cert cli_key =>
      simp only [World.perform, World.beginHostCerts]
      split
      · exact retargets_beginAt w host port uri
      · exact (retargets_beginAt w host port uri).before ⟨rfl, rfl, rfl, Or.inl rfl⟩
  | setURL url => exact retargets_setURL w url
  -- the credential setters are left out by the condition
  | setAuthorization user password => exact absurd h not_false
  | setAuthorizationCode auth => exact absurd h not_false
  | addHeader name value first replace => exact absurd h not_false
  | writeToStream k =>
      rcases writeToStream_frame w.http w.link k with ⟨client, dep, traits, size, hframe⟩
      have hlink := World.sameCalls_withLink w (writeToStream w.http w.link k).link
      simp only [World.perform, hframe]
      exact ⟨rfl, rfl, hlink.credentialHost, Or.inl rfl⟩
  | getString =>
      rcases getString_frame w.http w.link with ⟨client, dep, traits, size, hframe⟩
      have hlink := World.sameCalls_withLink w (getString w.http w.link).2.1
      simp only [World.perform, hframe]
      exact ⟨rfl, rfl, hlink.credentialHost, Or.inl rfl⟩
  | finish => exact retargets_finish w
  | setReuse reuse => exact ⟨rfl, rfl, rfl, Or.inl rfl⟩
  | setUserAgent userAgent => exact ⟨rfl, rfl, rfl, Or.inl rfl⟩
  | setAuthorizationType authType => exact ⟨rfl, rfl, rfl, Or.inl rfl⟩
  | useHTTP10 useHTTP10 => exact ⟨rfl, rfl, rfl, Or.inl rfl⟩
  | setFollowRedirects follow => exact ⟨rfl, rfl, rfl, Or.inl rfl⟩
  | setRedirectLimit limit => exact ⟨rfl, rfl, rfl, Or.inl rfl⟩
  | collectHeaders headerKeys => exact ⟨rfl, rfl, rfl, Or.inl rfl⟩
  | setCookieJar jar => exact ⟨rfl, rfl, rfl, Or.inl rfl⟩

/-! ### The request under way -/

/-- The request under way is as it was, and so is whether what the code does is
defined. -/
structure SameRequest (w w' : World) : Prop where
  pending : w'.pending = w.pending
  undefined : w'.undefined = w.undefined

theorem SameRequest.trans {w v w' : World} (h : SameRequest w v) (h' : SameRequest v w') :
    SameRequest w w' :=
  ⟨h'.pending.trans h.pending, h'.undefined.trans h.undefined⟩

/-- Changing the link leaves the request as it was. -/
theorem sameRequest_withLink (w : World) (link : Link) : SameRequest w (w.withLink link) := by
  have hlink := World.sameCalls_withLink w link
  exact ⟨hlink.pending, hlink.undefined⟩

/-- `disconnect` leaves the request as it was. -/
theorem sameRequest_disconnect (w : World) (preserveClient : Bool) :
    SameRequest w (w.disconnect preserveClient) := by
  rcases w.disconnect_frame preserveClient with ⟨_, _, _, -, -, -, hpending, hundefined⟩
  exact ⟨hpending, hundefined⟩

/-- Ending a mixed use leaves the request as it was. -/
theorem sameRequest_endMixed (w : World) (mixed : Bool) :
    SameRequest w (w.endMixed mixed) := by
  unfold World.endMixed
  split
  · have hended := sameRequest_disconnect { w with http := { w.http with canReuse := false } } false
    exact ⟨hended.pending, hended.undefined⟩
  · exact ⟨rfl, rfl⟩

/-- Making an own client leaves the request as it was. -/
theorem sameRequest_beginOwn (w : World) : SameRequest w w.beginOwn := by
  have hmixed := sameRequest_endMixed w (w.http.client.isSome && !w.http.tcpDeprecated.isSome)
  exact ⟨hmixed.pending, hmixed.undefined⟩

/-- `beginInternal` leaves what was sent before as it was. -/
theorem sameRequest_beginInternal (w : World) (url expectedProtocol : Text) :
    SameRequest w (w.beginInternal url expectedProtocol).1 := by
  rw [World.beginInternal_eq]
  cases urlTarget [expectedProtocol] url with
  | some u =>
      have hclosed := sameRequest_withLink w none
      unfold World.aim
      simp only []
      split
      · exact ⟨hclosed.pending, hclosed.undefined⟩
      · exact ⟨rfl, rfl⟩
  | none =>
      simp only []
      split <;> exact ⟨rfl, rfl⟩

/-- `begin` with a certificate leaves what was sent before as it was. -/
theorem sameRequest_beginUrlCert (w : World) (url : Text) (CAcert : Option Text) :
    SameRequest w (w.beginUrlCert url CAcert).1 := by
  have hended := sameRequest_beginOwn w
  have hbegin := sameRequest_beginInternal { w.beginOwn with
    http := { w.beginOwn.http with port := 443 } } url "https".toList
  unfold World.beginUrlCert
  simp only []
  split <;> exact ⟨hbegin.pending.trans hended.pending, hbegin.undefined.trans hended.undefined⟩

/-- `begin` with a URL leaves what was sent before as it was. -/
theorem sameRequest_beginUrl (w : World) (url : Text) : SameRequest w (w.beginUrl url).1 := by
  have hended := sameRequest_beginOwn w
  have hbegin := sameRequest_beginInternal { w.beginOwn with
    http := { w.beginOwn.http with port := 80 } } url "http".toList
  have hfirst := And.intro (hbegin.pending.trans hended.pending)
    (hbegin.undefined.trans hended.undefined)
  unfold World.beginUrl
  simp only []
  split
  · exact ⟨hfirst.1, hfirst.2⟩
  · exact SameRequest.trans ⟨hfirst.1, hfirst.2⟩ (sameRequest_beginUrlCert _ url none)

/-- `begin` with a client and a URL leaves what was sent before as it was. -/
theorem sameRequest_beginClientUrl (w : World) (client : Nat) (url : Text) :
    SameRequest w (w.beginClientUrl client url).1 := by
  have hmixed := sameRequest_endMixed w w.http.tcpDeprecated.isSome
  unfold World.beginClientUrl
  simp only []
  split
  · exact ⟨hmixed.pending, hmixed.undefined⟩
  · split
    · exact ⟨hmixed.pending, hmixed.undefined⟩
    · have hbegin := fun v protocol => sameRequest_beginInternal v url protocol
      exact ⟨(hbegin _ _).pending.trans hmixed.pending,
        (hbegin _ _).undefined.trans hmixed.undefined⟩

/-- `setURL` leaves the pending request as it was. -/
theorem pending_setURL (w : World) (url : Text) : (w.setURL url).1.pending = w.pending := by
  rcases w.setURL_cases url with ⟨-, hset⟩ | ⟨-, -, hset⟩ | ⟨-, -, -, hpending, -⟩
  · rw [hset]
  · rw [hset]
  · exact hpending

/-- `setURL` of a URL that reads nothing freed stays inside the language's rules. -/
theorem undefined_setURL (w : World) (url : Text) (h : w.readsFreed url = false) :
    (w.setURL url).1.undefined = w.undefined := by
  rcases w.setURL_cases url with ⟨-, hset⟩ | ⟨-, -, hset⟩ | ⟨hfreed, -⟩
  · rw [hset]
  · rw [hset]
  · exact absurd (h.symm.trans hfreed) Bool.false_ne_true

/-- Only `setURL` may do more than that. -/
theorem sameRequest_perform (w : World) (c : Call) (h : ∀ url, c ≠ .setURL url) :
    SameRequest w (w.perform c) := by
  -- `setURL` is left out, as a URL read from freed memory is undefined
  cases c with
  | beginClientUrl client url => exact sameRequest_beginClientUrl w client url
  | beginClientHost client host port uri https =>
      have hmixed := sameRequest_endMixed w w.http.tcpDeprecated.isSome
      exact ⟨hmixed.pending, hmixed.undefined⟩
  | beginUrl url => exact sameRequest_beginUrl w url
  | beginUrlCert url CAcert => exact sameRequest_beginUrlCert w url CAcert
  | beginHost host port uri =>
      have hended := sameRequest_beginOwn w
      exact ⟨hended.pending, hended.undefined⟩
  | beginHostCerts host port uri CAcert cli_cert cli_key =>
      have hended := sameRequest_beginOwn w
      simp only [World.perform, World.beginHostCerts]
      split <;> exact ⟨hended.pending, hended.undefined⟩
  | setURL url => exact absurd rfl (h url)
  | finish =>
      have hended := sameRequest_disconnect w false
      exact ⟨hended.pending, hended.undefined⟩
  | writeToStream k =>
      have hlink := sameRequest_withLink w (writeToStream w.http w.link k).link
      exact ⟨hlink.pending, hlink.undefined⟩
  | getString =>
      have hlink := sameRequest_withLink w (getString w.http w.link).2.1
      exact ⟨hlink.pending, hlink.undefined⟩
  | _ => exact ⟨rfl, rfl⟩

/-- No call of the user puts a request under way. -/
theorem pending_perform (w : World) (c : Call) : (w.perform c).pending = w.pending := by
  cases c with
  | setURL url => exact pending_setURL w url
  | _ => exact (sameRequest_perform w _ (fun _ hno => by cases hno)).pending

/-- A safe call stays inside the language's rules. -/
theorem undefined_perform (w : World) (c : Call) (hpending : w.pending = none)
    (h : Safe w (.call c)) : (w.perform c).undefined = w.undefined := by
  cases c with
  | setURL url => exact undefined_setURL w url (h hpending)
  | _ => exact (sameRequest_perform w _ (fun _ hno => by cases hno)).undefined

end Http

end ArduinoBeken
